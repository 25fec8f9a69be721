import SqlTree.Proofs.Statement.Pieces

/-!
# Statements — substitution

A `Substitution` puts pieces in the place of each piece of a statement and leaves texts as they are.
It therefore commutes with everything that only adds text: parentheses, commas and keywords.
-/

namespace SqlTree

/-- What to put in the place of each piece; texts stay. -/
structure Substitution where
  replace : Piece → List Piece
  replace_text (s : String) : replace (.text s) = [.text s]

namespace Substitution

/-- The pieces with every piece replaced. -/
def on (σ : Substitution) (ps : List Piece) : List Piece := ps.flatMap σ.replace

section
variable (σ : Substitution) {ps qs : List Piece}

@[simp] theorem on_nil : σ.on [] = [] := rfl

@[simp] theorem on_text (s : String) : σ.on (.text s :: ps) = .text s :: σ.on ps := by
  rw [on, List.flatMap_cons, σ.replace_text, on, List.singleton_append]

@[simp] theorem on_append : σ.on (ps ++ qs) = σ.on ps ++ σ.on qs := List.flatMap_append

/-- Pieces that are all kept stay as they are. -/
theorem on_eq_self (h : ∀ p ∈ ps, σ.replace p = [p]) : σ.on ps = ps := by
  induction ps with
  | nil => rfl
  | cons p ps ih =>
      have ih := ih fun p hp => h p (List.mem_cons_of_mem _ hp)
      rw [on, List.flatMap_cons, h p List.mem_cons_self, ← on, ih, List.singleton_append]

@[simp] theorem on_textIf (written : Bool) (s : String) :
    σ.on (Piece.textIf written s) = Piece.textIf written s := by
  cases written <;> simp [Piece.textIf]

@[simp] theorem on_parenthesized :
    σ.on (Piece.parenthesized ps) = Piece.parenthesized (σ.on ps) := by
  simp [Piece.parenthesized]

@[simp] theorem on_parenthesizedIf (needed : Bool) :
    σ.on (Piece.parenthesizedIf needed ps) = Piece.parenthesizedIf needed (σ.on ps) := by
  cases needed <;> simp [Piece.parenthesizedIf]

@[simp] theorem on_commaSeparated : ∀ gs : List (List Piece),
    σ.on (Piece.commaSeparated gs) = Piece.commaSeparated (gs.map σ.on)
  | [] => rfl
  | [g] => by simp
  | g :: h :: gs => by
      rw [Piece.commaSeparated_cons_cons, on_append, on_text, on_commaSeparated (h :: gs)]
      simp only [List.map_cons, Piece.commaSeparated_cons_cons]

@[simp] theorem on_clause (opening : String) (gs : List (List Piece)) :
    σ.on (Piece.clause opening gs) = Piece.clause opening (gs.map σ.on) := by
  cases gs <;> simp [Piece.clause]

@[simp] theorem on_selectionPieces (gs : List (List Piece)) :
    σ.on (selectionPieces gs) = selectionPieces (gs.map σ.on) := by
  cases gs <;> simp [selectionPieces]

@[simp] theorem on_rowPieces (d : Dialect) (rows : List (List Piece)) :
    σ.on (rowPieces d rows) = rowPieces d (rows.map σ.on) := by
  cases rows <;> simp [rowPieces]

@[simp] theorem on_unaryPieces (op : UnaryOperator) (atomic : Bool) :
    σ.on (unaryPieces op atomic ps) = unaryPieces op atomic (σ.on ps) := by
  cases op <;> simp [unaryPieces]

@[simp] theorem on_splice : ∀ (ts : List String) (gs : List (List Piece)),
    σ.on (splice ts gs) = splice ts (gs.map σ.on)
  | [], [] => rfl
  | t :: ts, [] => by
      have ih := on_splice ts []
      simpa [splice] using ih
  | [], g :: gs => by simp [splice, on_splice [] gs]
  | t :: ts, g :: gs => by simp [splice, on_splice ts gs]

end

/-! ### Names -/

/-- Quoted names are kept. -/
def KeepsNames (σ : Substitution) : Prop := ∀ name, σ.replace (.quoted name) = [.quoted name]

section
variable {σ : Substitution} (h : σ.KeepsNames)
include h

theorem KeepsNames.replace_ofIdentifier (id : Identifier) :
    σ.replace (.ofIdentifier id) = [.ofIdentifier id] := by
  unfold Piece.ofIdentifier
  split
  · exact σ.replace_text id.name
  · exact h id.name

theorem KeepsNames.on_ofIdentifier (id : Identifier) (ps : List Piece) :
    σ.on (.ofIdentifier id :: ps) = .ofIdentifier id :: σ.on ps := by
  rw [on, List.flatMap_cons, h.replace_ofIdentifier, on, List.singleton_append]

theorem KeepsNames.on_qualifierPieces (id? : Option Identifier) :
    σ.on (qualifierPieces id?) = qualifierPieces id? := by
  cases id? <;> simp [qualifierPieces, h.on_ofIdentifier]

theorem KeepsNames.on_aliasPieces (id? : Option Identifier) :
    σ.on (aliasPieces id?) = aliasPieces id? := by
  cases id? <;> simp [aliasPieces, h.on_ofIdentifier]

theorem KeepsNames.on_columnReference (c : ColumnReference) : σ.on c.pieces = c.pieces := by
  simp [ColumnReference.pieces, h.on_ofIdentifier, h.on_qualifierPieces]

theorem KeepsNames.on_tableReference (t : TableReference) : σ.on t.pieces = t.pieces := by
  simp [TableReference.pieces, h.on_ofIdentifier, h.on_qualifierPieces, h.on_aliasPieces]

theorem KeepsNames.on_columnListPieces (columns : List Identifier) :
    σ.on (columnListPieces columns) = columnListPieces columns := by
  have hc : σ.on ∘ (fun c : Identifier => [Piece.ofIdentifier c]) = fun c => [.ofIdentifier c] :=
    funext fun c => h.on_ofIdentifier c []
  cases columns <;> simp [columnListPieces, h.on_ofIdentifier, hc]

theorem KeepsNames.on_createTable (d : Dialect) (q : CreateTable) :
    σ.on (q.pieces d) = q.pieces d := by
  have hc : σ.on ∘ ColumnDefinition.pieces d = ColumnDefinition.pieces d :=
    funext fun c => by simp [ColumnDefinition.pieces, h.on_ofIdentifier]
  simp [CreateTable.pieces, h.on_tableReference, hc]

theorem KeepsNames.on_dropTable (q : DropTable) : σ.on q.pieces = q.pieces := by
  simp [DropTable.pieces, h.on_tableReference]

end

/-! ### Offences -/

/-- Offences are kept. -/
def KeepsOffences (σ : Substitution) : Prop := ∀ o, σ.replace (.offence o) = [.offence o]

section
variable {σ : Substitution} (h : σ.KeepsOffences)
include h

theorem KeepsOffences.on_offence (o : Offence) (ps : List Piece) :
    σ.on (.offence o :: ps) = .offence o :: σ.on ps := by
  rw [on, List.flatMap_cons, h o, on, List.singleton_append]

theorem KeepsOffences.on_returningPieces (d : Dialect) (gs : List (List Piece)) :
    σ.on (returningPieces d gs) = returningPieces d (gs.map σ.on) := by
  cases hd : d.supportsReturning <;> cases gs <;> simp [returningPieces, hd, h.on_offence]

theorem KeepsOffences.on_offsetPieces (d : Dialect) (hasLimit : Bool) (opening : String)
    (n? : Option Node) :
    σ.on (offsetPieces d hasLimit (Node.clausePieces d opening n?)) =
      offsetPieces d hasLimit (σ.on (Node.clausePieces d opening n?)) := by
  cases hd : d.supportsOffsetWithoutLimit <;> cases hasLimit <;> cases n? <;>
    simp [offsetPieces, Node.clausePieces, hd, h.on_offence]

theorem KeepsOffences.on_rawPieces (ts : List String) (gs : List (List Piece)) :
    σ.on (rawPieces ts gs) = rawPieces ts (gs.map σ.on) := by
  by_cases hl : ts.length = gs.length + 1 <;> simp [rawPieces, hl, h.on_offence]

end

end Substitution

end SqlTree
