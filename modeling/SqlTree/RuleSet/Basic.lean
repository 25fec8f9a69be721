import SqlTree.Error
import SqlTree.Traced

/-!
# Rule sets

A rule takes a node and gives the node to put in its place, or says why it cannot.  A `RuleSet`
holds at most one rule for each kind of node; registering a second one replaces the first.
-/

namespace SqlTree

/-- What to put in the place of a node; the string of a failure is its cause. -/
abbrev Rule := Node → Except String Node

/-- A transformation under way; its log holds the nodes handed to rules. -/
abbrev Transformation (α : Type) := Traced Node QueryError α

/-- The rule registered for each kind. -/
structure RuleSet where
  rule? : NodeKind → Option Rule

namespace RuleSet

def empty : RuleSet := ⟨fun _ => none⟩

/-- The rules with the one for `kind` replaced. -/
def register (rules : RuleSet) (kind : NodeKind) (rule : Rule) : RuleSet :=
  ⟨fun k => if k = kind then some rule else rules.rule? k⟩

/-- The rules of a list of registrations, made in order. -/
def ofList (entries : List (NodeKind × Rule)) : RuleSet :=
  entries.foldl (fun rules e => rules.register e.1 e.2) empty

/-- The kinds with a rule, in the order of their declaration. -/
def kinds (rules : RuleSet) : List NodeKind := NodeKind.all.filter fun k => (rules.rule? k).isSome

def isEmpty (rules : RuleSet) : Bool := rules.kinds.isEmpty

/-- The kinds with a rule, as a text for a reader. -/
def text (rules : RuleSet) : String :=
  "RuleSet \x7b kinds: [" ++ ", ".intercalate (rules.kinds.map NodeKind.name) ++ "] \x7d"

/-- Hands a node to the rule for its kind, and reports the node handed over.  A node without a rule
is left alone. -/
def apply (rules : RuleSet) (n : Node) : Transformation Node :=
  match rules.rule? n.kind with
  | none => .ok n
  | some rule =>
    match rule n with
    | .ok m => ⟨[n], .ok m⟩
    | .error cause => ⟨[n], .error (.rule n.kind cause)⟩

/-- Hands over a node whose place can only hold one kind of node, and takes that node back. -/
def applyIn {α : Type} (rules : RuleSet) (slot : Slot) (get? : Node → Option α) (n : Node) :
    Transformation α := do
  let m ← rules.apply n
  match get? m with
  | some a => .ok a
  | none => .fail (.unsupportedNodeKind m.kind slot)

end RuleSet

end SqlTree
