import SqlTree.RuleSet.Transform

/-!
# Trees — relabelling

`Node.relabel` changes the names and the tables of a tree and nothing else: `g` is applied to every
identifier, in whatever place it stands, and `t` to every table, after `g` has been applied to its
parts.

A rule set *relabels* by `g` and `t` when it does that to the nodes it is handed
(`RuleSet.Relabels`).  Transforming by such a rule set always succeeds, and gives the relabelled
tree (`RuleSet.Relabels.transform`).
-/

namespace SqlTree

section
variable (g : Identifier → Identifier) (t : TableReference → TableReference)

def ColumnReference.relabel (c : ColumnReference) : ColumnReference := ⟨c.table.map g, g c.column⟩

def TableReference.relabel (r : TableReference) : TableReference :=
  t ⟨r.schema.map g, g r.name, r.aliasName.map g⟩

def ColumnDefinition.relabel (c : ColumnDefinition) : ColumnDefinition :=
  { c with column := g c.column }

def CreateTable.relabel (q : CreateTable) : CreateTable :=
  { q with table := q.table.relabel g t, columns := q.columns.map (ColumnDefinition.relabel g) }

def DropTable.relabel (q : DropTable) : DropTable := { q with table := q.table.relabel g t }

mutual

/-- The tree with its names changed by `g` and its tables by `t`. -/
def Node.relabel : Node → Node
  | .identifier id => .identifier (g id)
  | .columnReference c => .columnReference (c.relabel g)
  | .tableReference r => .tableReference (r.relabel g t)
  | .aliased expr name => .aliased expr.relabel (g name)
  | .wildcard table => .wildcard (table.map g)
  | .join j => .join j.relabel
  | .orderItem i => .orderItem i.relabel
  | .binary l op r => .binary l.relabel op r.relabel
  | .unary op n => .unary op n.relabel
  | .call function args => .call function (Node.relabelList args)
  | .valueList items => .valueList (Node.relabelList items)
  | .columnUpdate u => .columnUpdate u.relabel
  | .columnDefinition c => .columnDefinition (c.relabel g)
  | .select q => .select q.relabel
  | .insert q => .insert q.relabel
  | .update q => .update q.relabel
  | .delete q => .delete q.relabel
  | .createTable q => .createTable (q.relabel g t)
  | .dropTable q => .dropTable (q.relabel g t)
  | .rawFragment texts bindings => .rawFragment texts (Node.relabelList bindings)
  | .parameter v => .parameter v

def Node.relabelList : List Node → List Node
  | [] => []
  | n :: ns => n.relabel :: Node.relabelList ns

def Node.relabelOption : Option Node → Option Node
  | none => none
  | some n => some n.relabel

def Node.relabelRows : List (List Node) → List (List Node)
  | [] => []
  | r :: rs => Node.relabelList r :: Node.relabelRows rs

def Join.relabel : Join → Join
  | ⟨joinType, target, condition⟩ => ⟨joinType, target.relabel, Node.relabelOption condition⟩

def Join.relabelList : List Join → List Join
  | [] => []
  | j :: js => j.relabel :: Join.relabelList js

def OrderItem.relabel : OrderItem → OrderItem
  | ⟨expr, direction⟩ => ⟨expr.relabel, direction⟩

def OrderItem.relabelList : List OrderItem → List OrderItem
  | [] => []
  | i :: is => i.relabel :: OrderItem.relabelList is

def ColumnUpdate.relabel : ColumnUpdate → ColumnUpdate
  | ⟨column, value⟩ => ⟨g column, value.relabel⟩

def ColumnUpdate.relabelList : List ColumnUpdate → List ColumnUpdate
  | [] => []
  | u :: us => u.relabel :: ColumnUpdate.relabelList us

def Select.relabel : Select → Select
  | ⟨distinct, selections, sources, joins, condition, grouping, having, ordering, limit, offset⟩ =>
    ⟨distinct, Node.relabelList selections, Node.relabelList sources, Join.relabelList joins,
      Node.relabelOption condition, Node.relabelList grouping, Node.relabelOption having,
      OrderItem.relabelList ordering, Node.relabelOption limit, Node.relabelOption offset⟩

def Insert.relabel : Insert → Insert
  | ⟨table, columns, rows, returning⟩ =>
    ⟨table.relabel g t, columns.map g, Node.relabelRows rows, Node.relabelList returning⟩

def Update.relabel : Update → Update
  | ⟨table, updates, condition, returning⟩ =>
    ⟨table.relabel g t, ColumnUpdate.relabelList updates, Node.relabelOption condition,
      Node.relabelList returning⟩

def Delete.relabel : Delete → Delete
  | ⟨table, condition, returning⟩ =>
    ⟨table.relabel g t, Node.relabelOption condition, Node.relabelList returning⟩

end

end

/-! ### Transforming by rules that relabel -/

/-- What the rules make of a node of each kind: names go through `g`, tables through `t`, and every
other node is left alone. -/
structure RuleSet.Relabels (rules : RuleSet) (g : Identifier → Identifier)
    (t : TableReference → TableReference) : Prop where
  identifier (id : Identifier) : (rules.apply (.identifier id)).result = .ok (.identifier (g id))
  table (r : TableReference) :
    (rules.apply (.tableReference r)).result = .ok (.tableReference (t r))
  other (n : Node) : n.identifier? = none → n.tableReference? = none →
    (rules.apply n).result = .ok n

/-- A single rule leaves the nodes of other kinds alone. -/
theorem RuleSet.result_apply_of_kind_ne {kind : NodeKind} {n : Node} (rule : Rule)
    (h : n.kind ≠ kind) : ((RuleSet.empty.register kind rule).apply n).result = .ok n := by
  rw [RuleSet.apply, RuleSet.register]
  simp only [if_neg h]
  rfl

/-- A single rule for identifiers changes names and leaves tables alone. -/
theorem RuleSet.relabels_identifier {rule : Rule} {g : Identifier → Identifier}
    (h : ∀ id, rule (.identifier id) = .ok (.identifier (g id))) :
    (RuleSet.empty.register .identifier rule).Relabels g id where
  identifier id := by
    have hrule : (RuleSet.empty.register .identifier rule).rule? (Node.identifier id).kind =
        some rule := rfl
    simp only [RuleSet.apply, hrule, h id]
  table _ := rfl
  other n hn _ := by
    have hk : n.kind ≠ .identifier := by
      cases n with
      | identifier id => cases hn
      | _ => exact NodeKind.noConfusion
    exact RuleSet.result_apply_of_kind_ne rule hk

section
variable {rules : RuleSet} {g : Identifier → Identifier} {t : TableReference → TableReference}
open Traced (result_bind_of)

/-- Handing a node over in a slot gives back what the rule makes of it, if that fits the slot. -/
theorem RuleSet.result_applyIn {α : Type} {slot : Slot} {get? : Node → Option α} {n m : Node}
    {a : α} (hm : (rules.apply n).result = .ok m) (ha : get? m = some a) :
    (rules.applyIn slot get? n).result = .ok a := by
  refine result_bind_of hm ?_
  rw [ha]
  rfl

section
variable (h : rules.Relabels g t)
include h

theorem Identifier.result_transform (slot : Slot) (id : Identifier) :
    (id.transform rules slot).result = .ok (g id) :=
  RuleSet.result_applyIn (h.identifier id) rfl

theorem Identifier.result_transformOption (slot : Slot) : ∀ id? : Option Identifier,
    (Identifier.transformOption rules slot id?).result = .ok (id?.map g)
  | none => rfl
  | some id => result_bind_of (Identifier.result_transform h slot id) rfl

theorem Identifier.result_transformList (slot : Slot) : ∀ ids : List Identifier,
    (Identifier.transformList rules slot ids).result = .ok (ids.map g)
  | [] => rfl
  | id :: ids =>
      result_bind_of (Identifier.result_transform h slot id)
        (result_bind_of (Identifier.result_transformList slot ids) rfl)

theorem ColumnReference.result_transformParts (c : ColumnReference) :
    (c.transformParts rules).result = .ok (c.relabel g) :=
  result_bind_of (Identifier.result_transformOption h _ c.table)
    (result_bind_of (Identifier.result_transform h _ c.column) rfl)

/-- The parts of a table are renamed; the table itself is not yet handed over. -/
theorem TableReference.result_transformParts (r : TableReference) :
    (r.transformParts rules).result = .ok (r.relabel g id) :=
  result_bind_of (Identifier.result_transformOption h _ r.schema)
    (result_bind_of (Identifier.result_transform h _ r.name)
      (result_bind_of (Identifier.result_transformOption h _ r.aliasName) rfl))

theorem TableReference.result_transform (slot : Slot) (r : TableReference) :
    (r.transform rules slot).result = .ok (r.relabel g t) :=
  result_bind_of (TableReference.result_transformParts h r)
    (RuleSet.result_applyIn (h.table _) rfl)

theorem ColumnDefinition.result_transformParts (c : ColumnDefinition) :
    (c.transformParts rules).result = .ok (c.relabel g) :=
  result_bind_of (Identifier.result_transform h _ c.column) rfl

theorem ColumnDefinition.result_transformList : ∀ cs : List ColumnDefinition,
    (ColumnDefinition.transformList rules cs).result = .ok (cs.map (ColumnDefinition.relabel g))
  | [] => rfl
  | c :: cs =>
      result_bind_of (ColumnDefinition.result_transformParts h c)
        (result_bind_of (RuleSet.result_applyIn (h.other (.columnDefinition _) rfl rfl) rfl)
          (result_bind_of (ColumnDefinition.result_transformList cs) rfl))

theorem CreateTable.result_transformParts (q : CreateTable) :
    (q.transformParts rules).result = .ok (q.relabel g t) :=
  result_bind_of (TableReference.result_transform h _ q.table)
    (result_bind_of (ColumnDefinition.result_transformList h q.columns) rfl)

theorem DropTable.result_transformParts (q : DropTable) :
    (q.transformParts rules).result = .ok (q.relabel g t) :=
  result_bind_of (TableReference.result_transform h _ q.table) rfl

end

mutual

/-- Transforming by rules that relabel gives the relabelled node. -/
theorem Node.result_transform (h : rules.Relabels g t) : ∀ n : Node,
    (n.transform rules).result = .ok (n.relabel g t)
  | .identifier id => h.identifier id
  | .columnReference c =>
      result_bind_of (ColumnReference.result_transformParts h c) (h.other _ rfl rfl)
  | .tableReference r => result_bind_of (TableReference.result_transformParts h r) (h.table _)
  | .aliased expr name =>
      result_bind_of (Node.result_transform h expr)
        (result_bind_of (Identifier.result_transform h _ name) (h.other _ rfl rfl))
  | .wildcard table =>
      result_bind_of (Identifier.result_transformOption h _ table) (h.other _ rfl rfl)
  | .join j => result_bind_of (Join.result_transformParts h j) (h.other _ rfl rfl)
  | .orderItem i => result_bind_of (OrderItem.result_transformParts h i) (h.other _ rfl rfl)
  | .binary l _ r =>
      result_bind_of (Node.result_transform h l)
        (result_bind_of (Node.result_transform h r) (h.other _ rfl rfl))
  | .unary _ n => result_bind_of (Node.result_transform h n) (h.other _ rfl rfl)
  | .call _ args => result_bind_of (Node.result_transformList h args) (h.other _ rfl rfl)
  | .valueList items => result_bind_of (Node.result_transformList h items) (h.other _ rfl rfl)
  | .columnUpdate u => result_bind_of (ColumnUpdate.result_transformParts h u) (h.other _ rfl rfl)
  | .columnDefinition c =>
      result_bind_of (ColumnDefinition.result_transformParts h c) (h.other _ rfl rfl)
  | .select q => result_bind_of (Select.result_transformParts h q) (h.other _ rfl rfl)
  | .insert q => result_bind_of (Insert.result_transformParts h q) (h.other _ rfl rfl)
  | .update q => result_bind_of (Update.result_transformParts h q) (h.other _ rfl rfl)
  | .delete q => result_bind_of (Delete.result_transformParts h q) (h.other _ rfl rfl)
  | .createTable q => result_bind_of (CreateTable.result_transformParts h q) (h.other _ rfl rfl)
  | .dropTable q => result_bind_of (DropTable.result_transformParts h q) (h.other _ rfl rfl)
  | .rawFragment _ bindings =>
      result_bind_of (Node.result_transformList h bindings) (h.other _ rfl rfl)
  | .parameter _ => h.other _ rfl rfl

theorem Node.result_transformList (h : rules.Relabels g t) : ∀ ns : List Node,
    (Node.transformList rules ns).result = .ok (Node.relabelList g t ns)
  | [] => rfl
  | n :: ns =>
      result_bind_of (Node.result_transform h n)
        (result_bind_of (Node.result_transformList h ns) rfl)

theorem Node.result_transformOption (h : rules.Relabels g t) : ∀ n? : Option Node,
    (Node.transformOption rules n?).result = .ok (Node.relabelOption g t n?)
  | none => rfl
  | some n => result_bind_of (Node.result_transform h n) rfl

theorem Node.result_transformRows (h : rules.Relabels g t) : ∀ rs : List (List Node),
    (Node.transformRows rules rs).result = .ok (Node.relabelRows g t rs)
  | [] => rfl
  | r :: rs =>
      result_bind_of (Node.result_transformList h r)
        (result_bind_of (Node.result_transformRows h rs) rfl)

theorem Join.result_transformParts (h : rules.Relabels g t) : ∀ j : Join,
    (j.transformParts rules).result = .ok (j.relabel g t)
  | ⟨_, target, condition⟩ =>
      result_bind_of (Node.result_transform h target)
        (result_bind_of (Node.result_transformOption h condition) rfl)

theorem Join.result_transformList (h : rules.Relabels g t) : ∀ js : List Join,
    (Join.transformList rules js).result = .ok (Join.relabelList g t js)
  | [] => rfl
  | j :: js =>
      result_bind_of (Join.result_transformParts h j)
        (result_bind_of (RuleSet.result_applyIn (h.other (.join _) rfl rfl) rfl)
          (result_bind_of (Join.result_transformList h js) rfl))

theorem OrderItem.result_transformParts (h : rules.Relabels g t) : ∀ i : OrderItem,
    (i.transformParts rules).result = .ok (i.relabel g t)
  | ⟨expr, _⟩ => result_bind_of (Node.result_transform h expr) rfl

theorem OrderItem.result_transformList (h : rules.Relabels g t) : ∀ is : List OrderItem,
    (OrderItem.transformList rules is).result = .ok (OrderItem.relabelList g t is)
  | [] => rfl
  | i :: is =>
      result_bind_of (OrderItem.result_transformParts h i)
        (result_bind_of (RuleSet.result_applyIn (h.other (.orderItem _) rfl rfl) rfl)
          (result_bind_of (OrderItem.result_transformList h is) rfl))

theorem ColumnUpdate.result_transformParts (h : rules.Relabels g t) : ∀ u : ColumnUpdate,
    (u.transformParts rules).result = .ok (u.relabel g t)
  | ⟨column, value⟩ =>
      result_bind_of (Identifier.result_transform h _ column)
        (result_bind_of (Node.result_transform h value) rfl)

theorem ColumnUpdate.result_transformList (h : rules.Relabels g t) : ∀ us : List ColumnUpdate,
    (ColumnUpdate.transformList rules us).result = .ok (ColumnUpdate.relabelList g t us)
  | [] => rfl
  | u :: us =>
      result_bind_of (ColumnUpdate.result_transformParts h u)
        (result_bind_of (RuleSet.result_applyIn (h.other (.columnUpdate _) rfl rfl) rfl)
          (result_bind_of (ColumnUpdate.result_transformList h us) rfl))

theorem Select.result_transformParts (h : rules.Relabels g t) : ∀ q : Select,
    (q.transformParts rules).result = .ok (q.relabel g t)
  | ⟨_, selections, sources, joins, condition, grouping, having, ordering, limit, offset⟩ =>
      result_bind_of (Node.result_transformList h selections) <|
      result_bind_of (Node.result_transformList h sources) <|
      result_bind_of (Join.result_transformList h joins) <|
      result_bind_of (Node.result_transformOption h condition) <|
      result_bind_of (Node.result_transformList h grouping) <|
      result_bind_of (Node.result_transformOption h having) <|
      result_bind_of (OrderItem.result_transformList h ordering) <|
      result_bind_of (Node.result_transformOption h limit) <|
      result_bind_of (Node.result_transformOption h offset) rfl

theorem Insert.result_transformParts (h : rules.Relabels g t) : ∀ q : Insert,
    (q.transformParts rules).result = .ok (q.relabel g t)
  | ⟨table, columns, rows, returning⟩ =>
      result_bind_of (TableReference.result_transform h _ table) <|
      result_bind_of (Identifier.result_transformList h _ columns) <|
      result_bind_of (Node.result_transformRows h rows) <|
      result_bind_of (Node.result_transformList h returning) rfl

theorem Update.result_transformParts (h : rules.Relabels g t) : ∀ q : Update,
    (q.transformParts rules).result = .ok (q.relabel g t)
  | ⟨table, updates, condition, returning⟩ =>
      result_bind_of (TableReference.result_transform h _ table) <|
      result_bind_of (ColumnUpdate.result_transformList h updates) <|
      result_bind_of (Node.result_transformOption h condition) <|
      result_bind_of (Node.result_transformList h returning) rfl

theorem Delete.result_transformParts (h : rules.Relabels g t) : ∀ q : Delete,
    (q.transformParts rules).result = .ok (q.relabel g t)
  | ⟨table, condition, returning⟩ =>
      result_bind_of (TableReference.result_transform h _ table) <|
      result_bind_of (Node.result_transformOption h condition) <|
      result_bind_of (Node.result_transformList h returning) rfl

end

/-- **Transforming by rules that relabel.**  It succeeds on every tree, and nothing but the names
and the tables has changed. -/
theorem RuleSet.Relabels.transform (h : rules.Relabels g t) (n : Node) :
    rules.transform n = .ok (n.relabel g t) :=
  Node.result_transform h n

end

end SqlTree
