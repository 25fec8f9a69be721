import SqlTree.Proofs.Statement.Writing

/-!
# Statements — parameters

`Node.parameters` lists the values of the parameters of a tree, depth first and from left to right,
the fields of a node being taken in the order in which a statement has them.  It knows nothing of
pieces or of text.

**Bindings** (`compile_parameters`).  Where a tree can be written, the bindings of its statement are
its parameters, and the text has one placeholder for each of them: the `k`-th one is the placeholder
for `k`, and `k` is the place of its value among the bindings.
-/

namespace SqlTree

/-! ### The parameters of a tree -/

mutual

/-- The values of the parameters of a node, depth first and from left to right. -/
def Node.parameters : Node → List Value
  | .identifier _ | .columnReference _ | .tableReference _ | .wildcard _ => []
  | .columnDefinition _ | .createTable _ | .dropTable _ => []
  | .aliased expr _ => expr.parameters
  | .join j => j.parameters
  | .orderItem item => item.parameters
  | .binary l _ r => l.parameters ++ r.parameters
  | .unary _ n => n.parameters
  | .call _ args => Node.listParameters args
  | .valueList items => Node.listParameters items
  | .columnUpdate u => u.parameters
  | .select q => q.parameters
  | .insert q => q.parameters
  | .update q => q.parameters
  | .delete q => q.parameters
  | .rawFragment _ bindings => Node.listParameters bindings
  | .parameter v => [v]

def Node.listParameters : List Node → List Value
  | [] => []
  | n :: ns => n.parameters ++ Node.listParameters ns

def Node.optionParameters : Option Node → List Value
  | none => []
  | some n => n.parameters

def Node.rowParameters : List (List Node) → List Value
  | [] => []
  | r :: rs => Node.listParameters r ++ Node.rowParameters rs

def Join.parameters : Join → List Value
  | ⟨_, target, condition⟩ => target.parameters ++ Node.optionParameters condition

def Join.listParameters : List Join → List Value
  | [] => []
  | j :: js => j.parameters ++ Join.listParameters js

def OrderItem.parameters : OrderItem → List Value
  | ⟨expr, _⟩ => expr.parameters

def OrderItem.listParameters : List OrderItem → List Value
  | [] => []
  | i :: is => i.parameters ++ OrderItem.listParameters is

def ColumnUpdate.parameters : ColumnUpdate → List Value
  | ⟨_, value⟩ => value.parameters

def ColumnUpdate.listParameters : List ColumnUpdate → List Value
  | [] => []
  | u :: us => u.parameters ++ ColumnUpdate.listParameters us

def Select.parameters : Select → List Value
  | ⟨_, selections, sources, joins, condition, grouping, having, ordering, limit, offset⟩ =>
    Node.listParameters selections ++ Node.listParameters sources ++ Join.listParameters joins ++
      Node.optionParameters condition ++ Node.listParameters grouping ++
      Node.optionParameters having ++ OrderItem.listParameters ordering ++
      Node.optionParameters limit ++ Node.optionParameters offset

def Insert.parameters : Insert → List Value
  | ⟨_, _, rows, returning⟩ => Node.rowParameters rows ++ Node.listParameters returning

def Update.parameters : Update → List Value
  | ⟨_, updates, condition, returning⟩ =>
    ColumnUpdate.listParameters updates ++ Node.optionParameters condition ++
      Node.listParameters returning

def Delete.parameters : Delete → List Value
  | ⟨_, condition, returning⟩ =>
    Node.optionParameters condition ++ Node.listParameters returning

end

/-! ### The placeholders of a tree -/

section
variable (d : Dialect)

@[simp] theorem bindings_qualifierPieces (id? : Option Identifier) :
    bindings (qualifierPieces id?) = [] := by
  cases id? <;> simp [qualifierPieces]

@[simp] theorem bindings_aliasPieces (id? : Option Identifier) :
    bindings (aliasPieces id?) = [] := by
  cases id? <;> simp [aliasPieces]

theorem TableReference.bindings_pieces (t : TableReference) : bindings t.pieces = [] := by
  simp [TableReference.pieces]

theorem CreateTable.bindings_pieces (q : CreateTable) : bindings (q.pieces d) = [] := by
  simp [CreateTable.pieces, TableReference.bindings_pieces, ColumnDefinition.pieces]

theorem bindings_columnListPieces (columns : List Identifier) :
    bindings (columnListPieces columns) = [] := by
  cases columns <;> simp [columnListPieces]

theorem bindings_selectionPieces (gs : List (List Piece)) :
    bindings (selectionPieces gs) = gs.flatMap bindings := by
  cases gs <;> simp [selectionPieces]

theorem bindings_rowPieces (rows : List (List Piece)) :
    bindings (rowPieces d rows) = rows.flatMap bindings := by
  cases rows <;> simp [rowPieces]

theorem bindings_returningPieces (gs : List (List Piece)) :
    bindings (returningPieces d gs) = gs.flatMap bindings := by
  cases h : d.supportsReturning <;> cases gs <;> simp [returningPieces, h]

theorem bindings_offsetPieces (hasLimit : Bool) (offset : List Piece) :
    bindings (offsetPieces d hasLimit offset) = bindings offset := by
  cases h : d.supportsOffsetWithoutLimit <;> cases hasLimit <;> cases offset <;>
    simp [offsetPieces, h]

theorem bindings_unaryPieces (op : UnaryOperator) (atomic : Bool) (ps : List Piece) :
    bindings (unaryPieces op atomic ps) = bindings ps := by
  cases op <;> simp [unaryPieces]

theorem bindings_splice : ∀ (ts : List String) (gs : List (List Piece)),
    bindings (splice ts gs) = gs.flatMap bindings
  | [], [] => rfl
  | t :: ts, [] => by
      have ih := bindings_splice ts []
      simpa [splice] using ih
  | [], g :: gs => by simp [splice, bindings_splice [] gs]
  | t :: ts, g :: gs => by simp [splice, bindings_splice ts gs]

theorem bindings_rawPieces (ts : List String) (gs : List (List Piece)) :
    bindings (rawPieces ts gs) = gs.flatMap bindings := by
  unfold rawPieces
  split <;> simp [bindings_splice]

mutual

/-- The placeholders of a node are for its parameters. -/
theorem Node.bindings_pieces : ∀ n : Node, bindings (n.pieces d) = n.parameters
  | .identifier _ | .columnReference _ => by
      simp [Node.pieces, Node.parameters, ColumnReference.pieces]
  | .tableReference t => TableReference.bindings_pieces t
  | .wildcard _ => by simp [Node.pieces, Node.parameters]
  | .columnDefinition _ => rfl
  | .createTable q => CreateTable.bindings_pieces d q
  | .dropTable q => by
      simp [Node.pieces, Node.parameters, DropTable.pieces, TableReference.bindings_pieces]
  | .aliased expr _ => by simp [Node.pieces, Node.parameters, Node.bindings_pieces expr]
  | .join j => by rw [Node.pieces, Node.parameters, Join.bindings_pieces j]
  | .orderItem i => by rw [Node.pieces, Node.parameters, OrderItem.bindings_pieces i]
  | .binary l op r => by
      simp [Node.pieces, Node.parameters, Node.bindings_pieces l, Node.bindings_pieces r]
  | .unary op n => by
      rw [Node.pieces, Node.parameters, bindings_unaryPieces, Node.bindings_pieces n]
  | .call _ args => by simp [Node.pieces, Node.parameters, Node.flatMap_pieceGroups args]
  | .valueList items => by simp [Node.pieces, Node.parameters, Node.flatMap_pieceGroups items]
  | .columnUpdate u => by rw [Node.pieces, Node.parameters, ColumnUpdate.bindings_pieces u]
  | .select q => by
      rw [Node.pieces, Node.parameters, bindings_parenthesized, Select.bindings_pieces q]
  | .insert q => by rw [Node.pieces, Node.parameters, Insert.bindings_pieces q]
  | .update q => by rw [Node.pieces, Node.parameters, Update.bindings_pieces q]
  | .delete q => by rw [Node.pieces, Node.parameters, Delete.bindings_pieces q]
  | .rawFragment ts bs => by
      rw [Node.pieces, Node.parameters, bindings_rawPieces, Node.flatMap_pieceGroups bs]
  | .parameter v => rfl

theorem Node.flatMap_pieceGroups : ∀ ns : List Node,
    (Node.pieceGroups d ns).flatMap bindings = Node.listParameters ns
  | [] => rfl
  | n :: ns => by
      rw [Node.pieceGroups, Node.listParameters, List.flatMap_cons, Node.bindings_pieces n,
        Node.flatMap_pieceGroups ns]

theorem Node.bindings_clausePieces (opening : String) : ∀ n? : Option Node,
    bindings (Node.clausePieces d opening n?) = Node.optionParameters n?
  | none => rfl
  | some n => by
      rw [Node.clausePieces, Node.optionParameters, bindings_text, Node.bindings_pieces n]

theorem Node.flatMap_rowGroups : ∀ rs : List (List Node),
    (Node.rowGroups d rs).flatMap bindings = Node.rowParameters rs
  | [] => rfl
  | r :: rs => by
      simp [Node.rowGroups, Node.rowParameters, Node.flatMap_pieceGroups r,
        Node.flatMap_rowGroups rs]

theorem Join.bindings_pieces : ∀ j : Join, bindings (j.pieces d) = j.parameters
  | ⟨_, target, condition⟩ => by
      simp [Join.pieces, Join.parameters, Node.bindings_pieces target,
        Node.bindings_clausePieces " on " condition]

theorem Join.bindings_listPieces : ∀ js : List Join,
    bindings (Join.listPieces d js) = Join.listParameters js
  | [] => rfl
  | j :: js => by
      simp [Join.listPieces, Join.listParameters, Join.bindings_pieces j,
        Join.bindings_listPieces js]

theorem OrderItem.bindings_pieces : ∀ i : OrderItem, bindings (i.pieces d) = i.parameters
  | ⟨expr, _⟩ => by simp [OrderItem.pieces, OrderItem.parameters, Node.bindings_pieces expr]

theorem OrderItem.flatMap_pieceGroups : ∀ is : List OrderItem,
    (OrderItem.pieceGroups d is).flatMap bindings = OrderItem.listParameters is
  | [] => rfl
  | i :: is => by
      rw [OrderItem.pieceGroups, OrderItem.listParameters, List.flatMap_cons,
        OrderItem.bindings_pieces i, OrderItem.flatMap_pieceGroups is]

theorem ColumnUpdate.bindings_pieces : ∀ u : ColumnUpdate, bindings (u.pieces d) = u.parameters
  | ⟨_, value⟩ => by
      simp [ColumnUpdate.pieces, ColumnUpdate.parameters, Node.bindings_pieces value]

theorem ColumnUpdate.flatMap_pieceGroups : ∀ us : List ColumnUpdate,
    (ColumnUpdate.pieceGroups d us).flatMap bindings = ColumnUpdate.listParameters us
  | [] => rfl
  | u :: us => by
      rw [ColumnUpdate.pieceGroups, ColumnUpdate.listParameters, List.flatMap_cons,
        ColumnUpdate.bindings_pieces u, ColumnUpdate.flatMap_pieceGroups us]

theorem Select.bindings_pieces : ∀ q : Select, bindings (q.pieces d) = q.parameters
  | ⟨_, selections, sources, joins, condition, grouping, having, ordering, limit, offset⟩ => by
      simp [Select.pieces, Select.parameters, bindings_selectionPieces, bindings_offsetPieces,
        Node.flatMap_pieceGroups, Join.bindings_listPieces joins, Node.bindings_clausePieces,
        OrderItem.flatMap_pieceGroups ordering]

theorem Insert.bindings_pieces : ∀ q : Insert, bindings (q.pieces d) = q.parameters
  | ⟨t, columns, rows, returning⟩ => by
      simp [Insert.pieces, Insert.parameters, TableReference.bindings_pieces,
        bindings_columnListPieces, bindings_rowPieces, bindings_returningPieces,
        Node.flatMap_rowGroups rows, Node.flatMap_pieceGroups returning]

theorem Update.bindings_pieces : ∀ q : Update, bindings (q.pieces d) = q.parameters
  | ⟨t, updates, condition, returning⟩ => by
      simp [Update.pieces, Update.parameters, TableReference.bindings_pieces,
        bindings_returningPieces, ColumnUpdate.flatMap_pieceGroups updates,
        Node.bindings_clausePieces, Node.flatMap_pieceGroups returning]

theorem Delete.bindings_pieces : ∀ q : Delete, bindings (q.pieces d) = q.parameters
  | ⟨t, condition, returning⟩ => by
      simp [Delete.pieces, Delete.parameters, TableReference.bindings_pieces,
        bindings_returningPieces, Node.bindings_clausePieces, Node.flatMap_pieceGroups returning]

end

end

/-- The placeholders of a statement are for its parameters. -/
theorem Node.bindings_statementPieces (d : Dialect) (n : Node) :
    bindings (n.statementPieces d) = n.parameters := by
  cases n with
  | select q => exact Select.bindings_pieces d q
  | _ => exact Node.bindings_pieces d _

/-! ### Statements -/

theorem Statement.eq_of_ofPieces {d : Dialect} {ps : List Piece} {s : Statement}
    (h : Statement.ofPieces d ps = .ok s) :
    firstOffence? ps = none ∧ s = ⟨layout d 1 ps, SqlTree.bindings ps⟩ := by
  unfold Statement.ofPieces at h
  cases ho : firstOffence? ps with
  | none =>
      rw [ho] at h
      exact ⟨rfl, (Except.ok.inj h).symm⟩
  | some o =>
      rw [ho] at h
      cases h

/-- The text of a placeholder is the one for its place among the placeholders. -/
theorem layout_split (d : Dialect) (k : Nat) (before : List Piece) (v : Value)
    (after : List Piece) :
    layout d k (before ++ .placeholder v :: after) =
      layout d k before ++ d.placeholder (k + (bindings before).length) ++
        layout d (k + (bindings before).length + 1) after := by
  rw [layout_append, layout, String.append_assoc]

/-- **Bindings.**  The bindings of a statement are the parameters of its tree.  Its text is the
layout of its pieces, among which one placeholder stands for each parameter, in the same order; the
`k`-th placeholder is written as the one for `k`. -/
theorem compile_parameters {d : Dialect} {n : Node} {s : Statement} (h : n.compile d = .ok s) :
    s.bindings = n.parameters ∧
    s.sql = layout d 1 (n.statementPieces d) ∧
    (n.statementPieces d).filterMap Piece.value? = n.parameters ∧
    (∀ before v after, n.statementPieces d = before ++ .placeholder v :: after →
      n.parameters[(bindings before).length]? = some v ∧
      s.sql = layout d 1 before ++ d.placeholder ((bindings before).length + 1) ++
        layout d ((bindings before).length + 2) after) ∧
    ∀ k, d.placeholder k = if d = .postgres then "$" ++ toString k else "?" := by
  rw [Node.compile_eq_ofPieces] at h
  obtain ⟨-, rfl⟩ := Statement.eq_of_ofPieces h
  have hb := Node.bindings_statementPieces d n
  refine ⟨hb, rfl, hb, fun before v after hp => ⟨?_, ?_⟩, fun k => ?_⟩
  · -- the bindings in front of a placeholder are the parameters in front of its own
    rw [← hb, hp, bindings_append, bindings_placeholder]
    simp
  · rw [hp, layout_split, Nat.add_comm 1, Nat.add_right_comm]
  · cases d <;> rfl

/-- A select with a parameter in a function, in a subquery, in a raw fragment and in its limit. -/
def nestedParameters : Node :=
  .select {
    selections := [.call "f" [.parameter (.int 1)]]
    sources := [.aliased (.select { selections := [.parameter (.text "x")] }) ⟨"a\"b", false⟩]
    condition := some (.rawFragment ["r ", ""] [.parameter .null])
    limit := some (.parameter (.int 2)) }

theorem compile_nestedParameters :
    nestedParameters.compile .postgres =
        .ok ⟨"select f($1) from (select $2) as \"a\"\"b\" where r $3 limit $4",
          [.int 1, .text "x", .null, .int 2]⟩ ∧
      [.int 1, .text "x", .null, .int 2] = nestedParameters.parameters := by
  have h : nestedParameters.compile .postgres =
      .ok ⟨"select f($1) from (select $2) as \"a\"\"b\" where r $3 limit $4",
        [.int 1, .text "x", .null, .int 2]⟩ := rfl
  exact ⟨h, (compile_parameters h).1⟩

end SqlTree
