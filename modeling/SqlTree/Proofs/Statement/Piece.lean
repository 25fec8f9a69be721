import SqlTree.Statement.Writer

/-!
# Statements — pieces

A statement is first a list of pieces, in the order in which they are written.  A piece still knows
what it stands for: a quoted name, a placeholder with its value, or other text.  What a dialect
cannot write is a piece too, `Piece.offence`, so a list of pieces also tells which offence comes
first.
-/

namespace SqlTree

inductive Piece where
  | quoted (name : String)
  | placeholder (value : Value)
  | text (s : String)
  | offence (o : Offence)
deriving Inhabited

namespace Piece

def value? : Piece → Option Value
  | placeholder v => some v
  | _ => none

def offence? : Piece → Option Offence
  | offence o => some o
  | _ => none

/-- The piece of a name. -/
def ofIdentifier (id : Identifier) : Piece := if id.raw then text id.name else quoted id.name

def textIf (written : Bool) (s : String) : List Piece := if written then [text s] else []

/-- Groups of pieces with commas between them. -/
def commaSeparated (groups : List (List Piece)) : List Piece :=
  [text ", "].intercalate groups

@[simp] theorem commaSeparated_nil : commaSeparated [] = [] := rfl

@[simp] theorem commaSeparated_singleton (g : List Piece) : commaSeparated [g] = g :=
  List.intercalate_singleton

theorem commaSeparated_cons_cons (g h : List Piece) (gs : List (List Piece)) :
    commaSeparated (g :: h :: gs) = g ++ text ", " :: commaSeparated (h :: gs) := by
  simp [commaSeparated, List.intercalate_cons_cons]

/-- Pieces between parentheses. -/
def parenthesized (ps : List Piece) : List Piece := text "(" :: ps ++ [text ")"]

/-- Pieces between parentheses if they need them. -/
def parenthesizedIf (needed : Bool) (ps : List Piece) : List Piece :=
  if needed then parenthesized ps else ps

/-- A clause that is left out when it is empty. -/
def clause (opening : String) (groups : List (List Piece)) : List Piece :=
  if groups.isEmpty then [] else text opening :: commaSeparated groups

end Piece

/-- The values of the placeholders, in order. -/
def bindings (ps : List Piece) : List Value := ps.filterMap Piece.value?

/-- The first offence, if there is one. -/
def firstOffence? (ps : List Piece) : Option Offence := ps.findSome? Piece.offence?

/-- The text of pieces in a dialect, placeholders being counted from `k`. -/
@[simp] def layout (d : Dialect) : Nat → List Piece → String
  | _, [] => ""
  | k, .quoted name :: ps => d.quoted name ++ layout d k ps
  | k, .placeholder _ :: ps => d.placeholder k ++ layout d (k + 1) ps
  | k, .text s :: ps => s ++ layout d k ps
  | k, .offence _ :: ps => layout d k ps

/-- The statement of a list of pieces. -/
def Statement.ofPieces (d : Dialect) (ps : List Piece) : Except QueryError Statement :=
  match firstOffence? ps with
  | some o => .error (o.error d)
  | none => .ok ⟨layout d 1 ps, SqlTree.bindings ps⟩

/-! ### Reading pieces off -/

section
variable {ps : List Piece}

@[simp] theorem bindings_nil : bindings [] = [] := rfl

@[simp] theorem bindings_quoted (name : String) : bindings (.quoted name :: ps) = bindings ps := rfl

@[simp] theorem bindings_text (s : String) : bindings (.text s :: ps) = bindings ps := rfl

@[simp] theorem bindings_offence (o : Offence) : bindings (.offence o :: ps) = bindings ps := rfl

@[simp] theorem bindings_placeholder (v : Value) :
    bindings (.placeholder v :: ps) = v :: bindings ps := rfl

@[simp] theorem bindings_append (qs : List Piece) :
    bindings (ps ++ qs) = bindings ps ++ bindings qs :=
  List.filterMap_append

@[simp] theorem bindings_ofIdentifier (id : Identifier) :
    bindings (.ofIdentifier id :: ps) = bindings ps := by
  unfold Piece.ofIdentifier
  split <;> rfl

@[simp] theorem bindings_textIf (written : Bool) (s : String) :
    bindings (Piece.textIf written s) = [] := by
  cases written <;> rfl

@[simp] theorem bindings_parenthesized : bindings (Piece.parenthesized ps) = bindings ps := by
  simp [Piece.parenthesized]

@[simp] theorem bindings_parenthesizedIf (needed : Bool) :
    bindings (Piece.parenthesizedIf needed ps) = bindings ps := by
  cases needed <;> simp [Piece.parenthesizedIf]

@[simp] theorem bindings_commaSeparated : ∀ gs : List (List Piece),
    bindings (Piece.commaSeparated gs) = gs.flatMap bindings
  | [] => rfl
  | [g] => by simp
  | g :: h :: gs => by
      rw [Piece.commaSeparated_cons_cons, bindings_append, bindings_text,
        bindings_commaSeparated (h :: gs)]
      simp

@[simp] theorem bindings_clause (opening : String) (gs : List (List Piece)) :
    bindings (Piece.clause opening gs) = gs.flatMap bindings := by
  cases gs <;> simp [Piece.clause]

@[simp] theorem firstOffence?_nil : firstOffence? [] = none := rfl

@[simp] theorem firstOffence?_quoted (name : String) :
    firstOffence? (.quoted name :: ps) = firstOffence? ps := rfl

@[simp] theorem firstOffence?_text (s : String) :
    firstOffence? (.text s :: ps) = firstOffence? ps := rfl

@[simp] theorem firstOffence?_placeholder (v : Value) :
    firstOffence? (.placeholder v :: ps) = firstOffence? ps := rfl

@[simp] theorem firstOffence?_offence (o : Offence) :
    firstOffence? (.offence o :: ps) = some o := rfl

@[simp] theorem firstOffence?_append (qs : List Piece) :
    firstOffence? (ps ++ qs) = (firstOffence? ps).or (firstOffence? qs) :=
  List.findSome?_append

@[simp] theorem firstOffence?_parenthesizedIf (needed : Bool) :
    firstOffence? (Piece.parenthesizedIf needed ps) = firstOffence? ps := by
  cases needed <;> simp [Piece.parenthesizedIf, Piece.parenthesized]

/-- The placeholders of the second part are counted on from those of the first. -/
theorem layout_append (d : Dialect) (k : Nat) (ps qs : List Piece) :
    layout d k (ps ++ qs) = layout d k ps ++ layout d (k + (bindings ps).length) qs := by
  -- only a placeholder moves the count on
  induction ps generalizing k with
  | nil => simp
  | cons p ps ih =>
      cases p with
      | quoted _ | text _ | offence _ => simp [ih, String.append_assoc]
      | placeholder _ => simp [ih (k + 1), String.append_assoc, Nat.add_assoc, Nat.add_comm 1]

end

end SqlTree
