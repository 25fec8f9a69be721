import SqlTree.Proofs.Statement.Parameters
import SqlTree.Proofs.Statement.Substitution
import SqlTree.Proofs.Tree.Values

/-!
# Statements — values

A value is bound, never written: a tree with other values has the same pieces but for what its
placeholders stand for.  Neither a parenthesis nor an offence depends on a value.

**Values** (`Node.compile_mapValues`).  Changing the values of a tree changes the bindings of its
statement in the same way, and nothing else: text and errors stay what they are.
-/

namespace SqlTree

/-- The pieces with the value of every placeholder changed by `f`. -/
def Substitution.values (f : Value → Value) : Substitution where
  replace
    | .placeholder v => [.placeholder (f v)]
    | p => [p]
  replace_text _ := rfl

section
open Substitution (values)
variable (f : Value → Value)

theorem keepsNames_values : (values f).KeepsNames := fun _ => rfl

theorem keepsOffences_values : (values f).KeepsOffences := fun _ => rfl

theorem bindings_values (ps : List Piece) :
    bindings ((values f).on ps) = (bindings ps).map f := by
  induction ps with
  | nil => rfl
  | cons p ps ih =>
      cases p with
      | placeholder v => exact congrArg (f v :: ·) ih
      | quoted _ | text _ | offence _ => exact ih

theorem firstOffence?_values (ps : List Piece) :
    firstOffence? ((values f).on ps) = firstOffence? ps := by
  induction ps with
  | nil => rfl
  | cons p ps ih =>
      cases p with
      | offence o => rfl
      | quoted _ | text _ | placeholder _ => exact ih

/-- A placeholder is laid out without its value. -/
theorem layout_values (d : Dialect) (k : Nat) (ps : List Piece) :
    layout d k ((values f).on ps) = layout d k ps := by
  induction ps generalizing k with
  | nil => rfl
  | cons p ps ih =>
      cases p with
      | quoted name => exact congrArg (d.quoted name ++ ·) (ih k)
      | placeholder v => exact congrArg (d.placeholder k ++ ·) (ih (k + 1))
      | text s => exact congrArg (s ++ ·) (ih k)
      | offence o => exact ih k

/-! ### The pieces of a tree with other values -/

theorem Node.leftParens_mapValues (op : BinaryOperator) (n : Node) :
    (n.mapValues f).leftParens op = n.leftParens op := by
  cases n <;> rfl

theorem Node.rightParens_mapValues (op : BinaryOperator) (n : Node) :
    (n.mapValues f).rightParens op = n.rightParens op := by
  cases n <;> rfl

theorem Node.isAtomic_mapValues (n : Node) : (n.mapValues f).isAtomic = n.isAtomic := by
  cases n <;> rfl

variable (d : Dialect)

mutual

/-- The pieces of a node with other values are its pieces with those values. -/
theorem Node.pieces_mapValues : ∀ n : Node,
    (n.mapValues f).pieces d = (values f).on (n.pieces d)
  | .identifier id => ((keepsNames_values f).on_ofIdentifier id []).symm
  | .columnReference c => ((keepsNames_values f).on_columnReference c).symm
  | .tableReference r => ((keepsNames_values f).on_tableReference r).symm
  | .aliased expr name => by
      simp [Node.mapValues, Node.pieces, Node.pieces_mapValues expr,
        (keepsNames_values f).on_aliasPieces]
  | .wildcard table => by
      simp [Node.mapValues, Node.pieces, (keepsNames_values f).on_qualifierPieces]
  | .join j => Join.pieces_mapValues j
  | .orderItem i => OrderItem.pieces_mapValues i
  | .binary l op r => by
      simp [Node.mapValues, Node.pieces, Node.pieces_mapValues l, Node.pieces_mapValues r,
        Node.leftParens_mapValues, Node.rightParens_mapValues]
  | .unary op n => by
      simp [Node.mapValues, Node.pieces, Node.pieces_mapValues n, Node.isAtomic_mapValues]
  | .call _ args => by simp [Node.mapValues, Node.pieces, Node.pieceGroups_mapValues args]
  | .valueList items => by simp [Node.mapValues, Node.pieces, Node.pieceGroups_mapValues items]
  | .columnUpdate u => ColumnUpdate.pieces_mapValues u
  | .columnDefinition _ => rfl
  | .select q => by simp [Node.mapValues, Node.pieces, Select.pieces_mapValues q]
  | .insert q => Insert.pieces_mapValues q
  | .update q => Update.pieces_mapValues q
  | .delete q => Delete.pieces_mapValues q
  | .createTable q => ((keepsNames_values f).on_createTable d q).symm
  | .dropTable q => ((keepsNames_values f).on_dropTable q).symm
  | .rawFragment _ bindings => by
      simp [Node.mapValues, Node.pieces, Node.pieceGroups_mapValues bindings,
        (keepsOffences_values f).on_rawPieces]
  | .parameter _ => rfl

theorem Node.pieceGroups_mapValues : ∀ ns : List Node,
    Node.pieceGroups d (Node.mapValuesList f ns) = (Node.pieceGroups d ns).map (values f).on
  | [] => rfl
  | n :: ns => congrArg₂ List.cons (Node.pieces_mapValues n) (Node.pieceGroups_mapValues ns)

theorem Node.clausePieces_mapValues (opening : String) : ∀ n? : Option Node,
    Node.clausePieces d opening (Node.mapValuesOption f n?) =
      (values f).on (Node.clausePieces d opening n?)
  | none => rfl
  | some n => by simp [Node.mapValuesOption, Node.clausePieces, Node.pieces_mapValues n]

theorem Node.rowGroups_mapValues : ∀ rs : List (List Node),
    Node.rowGroups d (Node.mapValuesRows f rs) = (Node.rowGroups d rs).map (values f).on
  | [] => rfl
  | r :: rs => by
      simp [Node.mapValuesRows, Node.rowGroups, Node.pieceGroups_mapValues r,
        Node.rowGroups_mapValues rs]

theorem Join.pieces_mapValues : ∀ j : Join,
    (j.mapValues f).pieces d = (values f).on (j.pieces d)
  | ⟨_, target, condition⟩ => by
      simp [Join.mapValues, Join.pieces, Node.pieces_mapValues target,
        Node.clausePieces_mapValues " on " condition]

theorem Join.listPieces_mapValues : ∀ js : List Join,
    Join.listPieces d (Join.mapValuesList f js) = (values f).on (Join.listPieces d js)
  | [] => rfl
  | j :: js => by
      simp [Join.mapValuesList, Join.listPieces, Join.pieces_mapValues j,
        Join.listPieces_mapValues js]

theorem OrderItem.pieces_mapValues : ∀ i : OrderItem,
    (i.mapValues f).pieces d = (values f).on (i.pieces d)
  | ⟨expr, _⟩ => by simp [OrderItem.mapValues, OrderItem.pieces, Node.pieces_mapValues expr]

theorem OrderItem.pieceGroups_mapValues : ∀ is : List OrderItem,
    OrderItem.pieceGroups d (OrderItem.mapValuesList f is) =
      (OrderItem.pieceGroups d is).map (values f).on
  | [] => rfl
  | i :: is => congrArg₂ List.cons (OrderItem.pieces_mapValues i)
      (OrderItem.pieceGroups_mapValues is)

theorem ColumnUpdate.pieces_mapValues : ∀ u : ColumnUpdate,
    (u.mapValues f).pieces d = (values f).on (u.pieces d)
  | ⟨_, value⟩ => by
      simp [ColumnUpdate.mapValues, ColumnUpdate.pieces, Node.pieces_mapValues value,
        (keepsNames_values f).on_ofIdentifier]

theorem ColumnUpdate.pieceGroups_mapValues : ∀ us : List ColumnUpdate,
    ColumnUpdate.pieceGroups d (ColumnUpdate.mapValuesList f us) =
      (ColumnUpdate.pieceGroups d us).map (values f).on
  | [] => rfl
  | u :: us => congrArg₂ List.cons (ColumnUpdate.pieces_mapValues u)
      (ColumnUpdate.pieceGroups_mapValues us)

theorem Select.pieces_mapValues : ∀ q : Select,
    (q.mapValues f).pieces d = (values f).on (q.pieces d)
  | ⟨_, selections, sources, joins, condition, grouping, having, ordering, limit, offset⟩ => by
      -- whether there is a limit is no matter of its value
      have hl : (Node.mapValuesOption f limit).isSome = limit.isSome := by cases limit <;> rfl
      simp [Select.mapValues, Select.pieces, Node.pieceGroups_mapValues selections,
        Node.pieceGroups_mapValues sources, Join.listPieces_mapValues joins,
        Node.clausePieces_mapValues _ condition, Node.pieceGroups_mapValues grouping,
        Node.clausePieces_mapValues _ having, OrderItem.pieceGroups_mapValues ordering,
        Node.clausePieces_mapValues _ limit, Node.clausePieces_mapValues _ offset,
        (keepsOffences_values f).on_offsetPieces, hl]

theorem Insert.pieces_mapValues : ∀ q : Insert,
    (q.mapValues f).pieces d = (values f).on (q.pieces d)
  | ⟨table, columns, rows, returning⟩ => by
      simp [Insert.mapValues, Insert.pieces, Node.rowGroups_mapValues rows,
        Node.pieceGroups_mapValues returning, (keepsNames_values f).on_tableReference,
        (keepsNames_values f).on_columnListPieces, (keepsOffences_values f).on_returningPieces]

theorem Update.pieces_mapValues : ∀ q : Update,
    (q.mapValues f).pieces d = (values f).on (q.pieces d)
  | ⟨table, updates, condition, returning⟩ => by
      simp [Update.mapValues, Update.pieces, ColumnUpdate.pieceGroups_mapValues updates,
        Node.clausePieces_mapValues _ condition, Node.pieceGroups_mapValues returning,
        (keepsNames_values f).on_tableReference, (keepsOffences_values f).on_returningPieces]

theorem Delete.pieces_mapValues : ∀ q : Delete,
    (q.mapValues f).pieces d = (values f).on (q.pieces d)
  | ⟨table, condition, returning⟩ => by
      simp [Delete.mapValues, Delete.pieces, Node.clausePieces_mapValues _ condition,
        Node.pieceGroups_mapValues returning, (keepsNames_values f).on_tableReference,
        (keepsOffences_values f).on_returningPieces]

end

theorem Node.statementPieces_mapValues (n : Node) :
    (n.mapValues f).statementPieces d = (values f).on (n.statementPieces d) := by
  cases n with
  | select q => exact Select.pieces_mapValues f d q
  | _ => exact Node.pieces_mapValues f d _

/-! ### Statements -/

theorem Node.parameters_mapValues (n : Node) :
    (n.mapValues f).parameters = n.parameters.map f := by
  -- any dialect will do
  have h := Node.statementPieces_mapValues f .postgres n
  rw [← Node.bindings_statementPieces .postgres, h, bindings_values,
    Node.bindings_statementPieces]

/-- **Values.**  A tree with its values changed has the statement of the tree with its bindings
changed; where the tree has no statement, it fails with the same error. -/
theorem Node.compile_mapValues (n : Node) :
    (n.mapValues f).compile d =
      (n.compile d).map fun s => { s with bindings := s.bindings.map f } := by
  rw [Node.compile_eq_ofPieces, Node.compile_eq_ofPieces, Node.statementPieces_mapValues,
    Statement.ofPieces, Statement.ofPieces, firstOffence?_values, bindings_values, layout_values]
  cases firstOffence? (n.statementPieces d) with
  | none => rfl
  | some o => rfl

end

end SqlTree
