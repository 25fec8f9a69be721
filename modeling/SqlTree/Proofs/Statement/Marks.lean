import SqlTree.Proofs.Statement.Parameters

/-!
# Statements — names, values and offences

The pieces of a statement that are more than text are its *marks*: quoted names, placeholders and
offences.  `Node.marks` lists them for a tree, depth first and from left to right, and knows nothing
of text or of a dialect.  What some dialect cannot write is among them wherever it stands; whether a
dialect objects to it is `Dialect.rejects`.

**Marks** (`Node.marks_pieces`).  The pieces of a tree in a dialect have the marks of the tree,
without those offences that the dialect does not reject.

**Offences** (`compile_offences`).  A tree has no statement exactly if it has an offence that the
dialect rejects, and the error is that of the first one.
-/

namespace SqlTree

/-! ### The marks of pieces -/

def Piece.isText : Piece → Bool
  | text _ => true
  | _ => false

def Piece.name? : Piece → Option String
  | quoted name => some name
  | _ => none

/-- The pieces that are more than text. -/
def marks (ps : List Piece) : List Piece := ps.filter fun p => !p.isText

/-- The quoted names, in order. -/
def names (ps : List Piece) : List String := ps.filterMap Piece.name?

/-- The offences, in order. -/
def offences (ps : List Piece) : List Offence := ps.filterMap Piece.offence?

/-- The mark of a name; a raw name is text. -/
def Identifier.marks (id : Identifier) : List Piece := if id.raw then [] else [.quoted id.name]

def Identifier.optionMarks : Option Identifier → List Piece
  | none => []
  | some id => id.marks

section
variable {ps : List Piece}

@[simp] theorem marks_nil : marks [] = [] := rfl

@[simp] theorem marks_text (s : String) : marks (.text s :: ps) = marks ps := rfl

@[simp] theorem marks_quoted (name : String) :
    marks (.quoted name :: ps) = .quoted name :: marks ps := rfl

@[simp] theorem marks_placeholder (v : Value) :
    marks (.placeholder v :: ps) = .placeholder v :: marks ps := rfl

@[simp] theorem marks_offence (o : Offence) :
    marks (.offence o :: ps) = .offence o :: marks ps := rfl

@[simp] theorem marks_append (qs : List Piece) : marks (ps ++ qs) = marks ps ++ marks qs :=
  List.filter_append ..

@[simp] theorem marks_ofIdentifier (id : Identifier) :
    marks (.ofIdentifier id :: ps) = id.marks ++ marks ps := by
  unfold Piece.ofIdentifier Identifier.marks
  split <;> rfl

@[simp] theorem marks_textIf (written : Bool) (s : String) :
    marks (Piece.textIf written s) = [] := by
  cases written <;> rfl

@[simp] theorem marks_parenthesized : marks (Piece.parenthesized ps) = marks ps := by
  simp [Piece.parenthesized]

@[simp] theorem marks_parenthesizedIf (needed : Bool) :
    marks (Piece.parenthesizedIf needed ps) = marks ps := by
  cases needed <;> simp [Piece.parenthesizedIf]

@[simp] theorem marks_commaSeparated : ∀ gs : List (List Piece),
    marks (Piece.commaSeparated gs) = gs.flatMap marks
  | [] => rfl
  | [g] => by simp
  | g :: h :: gs => by
      rw [Piece.commaSeparated_cons_cons, marks_append, marks_text, marks_commaSeparated (h :: gs)]
      simp

@[simp] theorem marks_clause (opening : String) (gs : List (List Piece)) :
    marks (Piece.clause opening gs) = gs.flatMap marks := by
  cases gs <;> simp [Piece.clause]

end

/-- What is picked from pieces is picked from their marks, if no text is picked. -/
theorem filterMap_marks {α : Type} {pick : Piece → Option α} (h : ∀ s, pick (.text s) = none)
    (ps : List Piece) : (marks ps).filterMap pick = ps.filterMap pick := by
  have hpick : (fun p => if !p.isText then pick p else none) = pick := by
    funext p
    cases p with
    | text s => exact (h s).symm
    | quoted _ | placeholder _ | offence _ => rfl
  rw [marks, List.filterMap_filter, hpick]

/-! ### The marks of a tree -/

/-- Whether a dialect has no way to write what an offence stands for. -/
def Dialect.rejects (d : Dialect) : Offence → Bool
  | .strayColumnDefinition | .rawFragment _ _ => true
  | .returning => d = .mysql
  | .offsetWithoutLimit => d = .mysql || d = .sqlite

/-- A mark counts for every dialect, except for an offence that the dialect does not reject. -/
def Piece.countsFor (d : Dialect) : Piece → Bool
  | offence o => d.rejects o
  | _ => true

def TableReference.marks (t : TableReference) : List Piece :=
  Identifier.optionMarks t.schema ++ t.name.marks ++ Identifier.optionMarks t.aliasName

/-- The marks of a returning clause; whether it is supported is asked before what it returns. -/
def returningMarks (isEmpty : Bool) (returned : List Piece) : List Piece :=
  if isEmpty then [] else .offence .returning :: returned

/-- The marks of a limit and an offset; an offset without a limit is noticed before the offset. -/
def offsetMarks (hasLimit hasOffset : Bool) (offset : List Piece) : List Piece :=
  (if hasOffset && !hasLimit then [.offence .offsetWithoutLimit] else []) ++ offset

/-- The marks of a raw fragment; its texts are counted before its bindings are looked at. -/
def rawMarks (texts bindings : Nat) (bound : List Piece) : List Piece :=
  (if texts = bindings + 1 then [] else [.offence (.rawFragment texts bindings)]) ++ bound

mutual

/-- The names, values and offences of a node, depth first and from left to right. -/
def Node.marks : Node → List Piece
  | .identifier id => id.marks
  | .columnReference c => Identifier.optionMarks c.table ++ c.column.marks
  | .tableReference t => t.marks
  | .aliased expr name => expr.marks ++ name.marks
  | .wildcard table => Identifier.optionMarks table
  | .join j => j.marks
  | .orderItem i => i.marks
  | .binary l _ r => l.marks ++ r.marks
  | .unary _ n => n.marks
  | .call _ args => Node.listMarks args
  | .valueList items => Node.listMarks items
  | .columnUpdate u => u.marks
  | .columnDefinition _ => [.offence .strayColumnDefinition]
  | .select q => q.marks
  | .insert q => q.marks
  | .update q => q.marks
  | .delete q => q.marks
  | .createTable q => q.table.marks ++ q.columns.flatMap fun c => c.column.marks
  | .dropTable q => q.table.marks
  | .rawFragment texts bindings =>
    rawMarks texts.length bindings.length (Node.listMarks bindings)
  | .parameter v => [.placeholder v]

def Node.listMarks : List Node → List Piece
  | [] => []
  | n :: ns => n.marks ++ Node.listMarks ns

def Node.optionMarks : Option Node → List Piece
  | none => []
  | some n => n.marks

def Node.rowMarks : List (List Node) → List Piece
  | [] => []
  | r :: rs => Node.listMarks r ++ Node.rowMarks rs

def Join.marks : Join → List Piece
  | ⟨_, target, condition⟩ => target.marks ++ Node.optionMarks condition

def Join.listMarks : List Join → List Piece
  | [] => []
  | j :: js => j.marks ++ Join.listMarks js

def OrderItem.marks : OrderItem → List Piece
  | ⟨expr, _⟩ => expr.marks

def OrderItem.listMarks : List OrderItem → List Piece
  | [] => []
  | i :: is => i.marks ++ OrderItem.listMarks is

def ColumnUpdate.marks : ColumnUpdate → List Piece
  | ⟨column, value⟩ => column.marks ++ value.marks

def ColumnUpdate.listMarks : List ColumnUpdate → List Piece
  | [] => []
  | u :: us => u.marks ++ ColumnUpdate.listMarks us

def Select.marks : Select → List Piece
  | ⟨_, selections, sources, joins, condition, grouping, having, ordering, limit, offset⟩ =>
    Node.listMarks selections ++ Node.listMarks sources ++ Join.listMarks joins ++
      Node.optionMarks condition ++ Node.listMarks grouping ++ Node.optionMarks having ++
      OrderItem.listMarks ordering ++ Node.optionMarks limit ++
      offsetMarks limit.isSome offset.isSome (Node.optionMarks offset)

def Insert.marks : Insert → List Piece
  | ⟨table, columns, rows, returning⟩ =>
    table.marks ++ columns.flatMap Identifier.marks ++ Node.rowMarks rows ++
      returningMarks returning.isEmpty (Node.listMarks returning)

def Update.marks : Update → List Piece
  | ⟨table, updates, condition, returning⟩ =>
    table.marks ++ ColumnUpdate.listMarks updates ++ Node.optionMarks condition ++
      returningMarks returning.isEmpty (Node.listMarks returning)

def Delete.marks : Delete → List Piece
  | ⟨table, condition, returning⟩ =>
    table.marks ++ Node.optionMarks condition ++
      returningMarks returning.isEmpty (Node.listMarks returning)

end

/-- The names of a tree that are quoted, in the order in which a statement has them. -/
def Node.names (n : Node) : List String := SqlTree.names n.marks

/-- What some dialect objects to in a tree, in the order in which it would be written. -/
def Node.offences (n : Node) : List Offence := SqlTree.offences n.marks

/-! ### The marks of the pieces of a tree -/

section
variable {d : Dialect}

theorem Identifier.filter_marks (id : Identifier) :
    id.marks.filter (Piece.countsFor d) = id.marks := by
  unfold Identifier.marks
  split <;> rfl

theorem Identifier.filter_optionMarks (id? : Option Identifier) :
    (Identifier.optionMarks id?).filter (Piece.countsFor d) = Identifier.optionMarks id? := by
  cases id? with
  | none => rfl
  | some id => exact Identifier.filter_marks id

theorem Identifier.filter_flatMap_marks (ids : List Identifier) :
    (ids.flatMap Identifier.marks).filter (Piece.countsFor d) = ids.flatMap Identifier.marks := by
  simp [List.filter_flatMap, Identifier.filter_marks]

theorem marks_qualifierPieces (id? : Option Identifier) :
    marks (qualifierPieces id?) = Identifier.optionMarks id? := by
  cases id? <;> simp [qualifierPieces, Identifier.optionMarks]

theorem marks_aliasPieces (id? : Option Identifier) :
    marks (aliasPieces id?) = Identifier.optionMarks id? := by
  cases id? <;> simp [aliasPieces, Identifier.optionMarks]

theorem TableReference.marks_pieces (t : TableReference) : SqlTree.marks t.pieces = t.marks := by
  simp [TableReference.pieces, TableReference.marks, marks_qualifierPieces, marks_aliasPieces]

theorem TableReference.filter_marks (t : TableReference) :
    t.marks.filter (Piece.countsFor d) = t.marks := by
  simp [TableReference.marks, Identifier.filter_marks, Identifier.filter_optionMarks]

/-- A column of a table to be created has one mark, its name. -/
theorem ColumnDefinition.marks_pieces (c : ColumnDefinition) :
    SqlTree.marks (c.pieces d) = c.column.marks := by
  simp [ColumnDefinition.pieces]

theorem marks_columnListPieces (columns : List Identifier) :
    marks (columnListPieces columns) = columns.flatMap Identifier.marks := by
  cases columns <;> simp [columnListPieces, List.flatMap_map]

theorem marks_selectionPieces (gs : List (List Piece)) :
    marks (selectionPieces gs) = gs.flatMap marks := by
  cases gs <;> simp [selectionPieces]

theorem marks_rowPieces (rows : List (List Piece)) :
    marks (rowPieces d rows) = rows.flatMap marks := by
  cases rows <;> simp [rowPieces]

theorem marks_returningPieces {gs : List (List Piece)} {isEmpty : Bool} {ms : List Piece}
    (he : gs.isEmpty = isEmpty) (h : gs.flatMap marks = ms.filter (Piece.countsFor d)) :
    marks (returningPieces d gs) = (returningMarks isEmpty ms).filter (Piece.countsFor d) := by
  subst he
  cases gs with
  | nil => rfl
  | cons g gs =>
      have hd : d.rejects .returning = !d.supportsReturning := by cases d <;> rfl
      cases hs : d.supportsReturning <;>
        simp [returningPieces, returningMarks, Piece.countsFor, hd, hs, ← h]

theorem marks_offsetPieces {ps ms : List Piece} {hasOffset : Bool} (hasLimit : Bool)
    (he : ps.isEmpty = !hasOffset) (h : marks ps = ms.filter (Piece.countsFor d)) :
    marks (offsetPieces d hasLimit ps) =
      (offsetMarks hasLimit hasOffset ms).filter (Piece.countsFor d) := by
  have hd : d.rejects .offsetWithoutLimit = !d.supportsOffsetWithoutLimit := by cases d <;> rfl
  cases hasOffset with
  | false =>
      obtain rfl : ps = [] := List.isEmpty_iff.mp he
      exact h
  | true =>
      have hne : ps.isEmpty = false := he
      cases hasLimit <;> cases hs : d.supportsOffsetWithoutLimit <;>
        simp [offsetPieces, offsetMarks, Piece.countsFor, hne, hd, hs, h]

theorem marks_unaryPieces (op : UnaryOperator) (atomic : Bool) (ps : List Piece) :
    marks (unaryPieces op atomic ps) = marks ps := by
  cases op <;> simp [unaryPieces]

theorem marks_splice : ∀ (ts : List String) (gs : List (List Piece)),
    marks (splice ts gs) = gs.flatMap marks
  | [], [] => rfl
  | t :: ts, [] => by
      have ih := marks_splice ts []
      simpa [splice] using ih
  | [], g :: gs => by simp [splice, marks_splice [] gs]
  | t :: ts, g :: gs => by simp [splice, marks_splice ts gs]

theorem marks_rawPieces {ts : List String} {gs : List (List Piece)} {bindings : Nat}
    {ms : List Piece} (hl : gs.length = bindings)
    (h : gs.flatMap marks = ms.filter (Piece.countsFor d)) :
    marks (rawPieces ts gs) =
      (rawMarks ts.length bindings ms).filter (Piece.countsFor d) := by
  subst hl
  unfold rawPieces rawMarks
  split <;> simp [marks_splice, h, List.filter_cons, Piece.countsFor, Dialect.rejects]

variable (d)

mutual

/-- **Marks.**  The pieces of a node have the marks of the node, as far as they count for the
dialect. -/
theorem Node.marks_pieces : ∀ n : Node,
    SqlTree.marks (n.pieces d) = n.marks.filter (Piece.countsFor d)
  | .identifier id => by simp [Node.pieces, Node.marks, Identifier.filter_marks]
  | .columnReference c => by
      simp [Node.pieces, Node.marks, ColumnReference.pieces, marks_qualifierPieces,
        Identifier.filter_marks, Identifier.filter_optionMarks]
  | .tableReference t => by
      rw [Node.pieces, Node.marks, TableReference.marks_pieces, TableReference.filter_marks]
  | .aliased expr name => by
      simp [Node.pieces, Node.marks, Node.marks_pieces expr, marks_aliasPieces,
        Identifier.optionMarks, Identifier.filter_marks]
  | .wildcard table => by
      simp [Node.pieces, Node.marks, marks_qualifierPieces, Identifier.filter_optionMarks]
  | .join j => by rw [Node.pieces, Node.marks, Join.marks_pieces j]
  | .orderItem i => by rw [Node.pieces, Node.marks, OrderItem.marks_pieces i]
  | .binary l op r => by
      simp [Node.pieces, Node.marks, Node.marks_pieces l, Node.marks_pieces r]
  | .unary op n => by rw [Node.pieces, Node.marks, marks_unaryPieces, Node.marks_pieces n]
  | .call _ args => by simp [Node.pieces, Node.marks, Node.marks_pieceGroups args]
  | .valueList items => by simp [Node.pieces, Node.marks, Node.marks_pieceGroups items]
  | .columnUpdate u => by rw [Node.pieces, Node.marks, ColumnUpdate.marks_pieces u]
  | .columnDefinition _ => rfl
  | .select q => by rw [Node.pieces, Node.marks, marks_parenthesized, Select.marks_pieces q]
  | .insert q => by rw [Node.pieces, Node.marks, Insert.marks_pieces q]
  | .update q => by rw [Node.pieces, Node.marks, Update.marks_pieces q]
  | .delete q => by rw [Node.pieces, Node.marks, Delete.marks_pieces q]
  | .createTable q => by
      simp [Node.pieces, Node.marks, CreateTable.pieces, TableReference.marks_pieces,
        TableReference.filter_marks, ColumnDefinition.marks_pieces, List.flatMap_map,
        List.filter_flatMap, Identifier.filter_marks]
  | .dropTable q => by
      simp [Node.pieces, Node.marks, DropTable.pieces, TableReference.marks_pieces,
        TableReference.filter_marks]
  | .rawFragment ts bs => marks_rawPieces (Node.length_pieceGroups bs) (Node.marks_pieceGroups bs)
  | .parameter _ => rfl

theorem Node.marks_pieceGroups : ∀ ns : List Node,
    (Node.pieceGroups d ns).flatMap SqlTree.marks =
      (Node.listMarks ns).filter (Piece.countsFor d)
  | [] => rfl
  | n :: ns => by
      rw [Node.pieceGroups, Node.listMarks, List.flatMap_cons, List.filter_append,
        Node.marks_pieces n, Node.marks_pieceGroups ns]

theorem Node.marks_clausePieces (opening : String) : ∀ n? : Option Node,
    SqlTree.marks (Node.clausePieces d opening n?) =
      (Node.optionMarks n?).filter (Piece.countsFor d)
  | none => rfl
  | some n => by rw [Node.clausePieces, Node.optionMarks, marks_text, Node.marks_pieces n]

theorem Node.marks_rowGroups : ∀ rs : List (List Node),
    (Node.rowGroups d rs).flatMap SqlTree.marks = (Node.rowMarks rs).filter (Piece.countsFor d)
  | [] => rfl
  | r :: rs => by
      simp [Node.rowGroups, Node.rowMarks, Node.marks_pieceGroups r, Node.marks_rowGroups rs]

theorem Join.marks_pieces : ∀ j : Join,
    SqlTree.marks (j.pieces d) = j.marks.filter (Piece.countsFor d)
  | ⟨_, target, condition⟩ => by
      simp [Join.pieces, Join.marks, Node.marks_pieces target,
        Node.marks_clausePieces " on " condition]

theorem Join.marks_listPieces : ∀ js : List Join,
    SqlTree.marks (Join.listPieces d js) = (Join.listMarks js).filter (Piece.countsFor d)
  | [] => rfl
  | j :: js => by
      simp [Join.listPieces, Join.listMarks, Join.marks_pieces j, Join.marks_listPieces js]

theorem OrderItem.marks_pieces : ∀ i : OrderItem,
    SqlTree.marks (i.pieces d) = i.marks.filter (Piece.countsFor d)
  | ⟨expr, _⟩ => by simp [OrderItem.pieces, OrderItem.marks, Node.marks_pieces expr]

theorem OrderItem.marks_pieceGroups : ∀ is : List OrderItem,
    (OrderItem.pieceGroups d is).flatMap SqlTree.marks =
      (OrderItem.listMarks is).filter (Piece.countsFor d)
  | [] => rfl
  | i :: is => by
      rw [OrderItem.pieceGroups, OrderItem.listMarks, List.flatMap_cons, List.filter_append,
        OrderItem.marks_pieces i, OrderItem.marks_pieceGroups is]

theorem ColumnUpdate.marks_pieces : ∀ u : ColumnUpdate,
    SqlTree.marks (u.pieces d) = u.marks.filter (Piece.countsFor d)
  | ⟨column, value⟩ => by
      simp [ColumnUpdate.pieces, ColumnUpdate.marks, Node.marks_pieces value,
        Identifier.filter_marks]

theorem ColumnUpdate.marks_pieceGroups : ∀ us : List ColumnUpdate,
    (ColumnUpdate.pieceGroups d us).flatMap SqlTree.marks =
      (ColumnUpdate.listMarks us).filter (Piece.countsFor d)
  | [] => rfl
  | u :: us => by
      rw [ColumnUpdate.pieceGroups, ColumnUpdate.listMarks, List.flatMap_cons, List.filter_append,
        ColumnUpdate.marks_pieces u, ColumnUpdate.marks_pieceGroups us]

theorem Select.marks_pieces : ∀ q : Select,
    SqlTree.marks (q.pieces d) = q.marks.filter (Piece.countsFor d)
  | ⟨_, selections, sources, joins, condition, grouping, having, ordering, limit, offset⟩ => by
      have hempty : (Node.clausePieces d " offset " offset).isEmpty = !offset.isSome := by
        cases offset <;> rfl
      simp [Select.pieces, Select.marks, marks_selectionPieces, Node.marks_pieceGroups,
        Join.marks_listPieces joins, Node.marks_clausePieces, OrderItem.marks_pieceGroups ordering,
        marks_offsetPieces limit.isSome hempty (Node.marks_clausePieces " offset " offset)]

theorem Insert.marks_pieces : ∀ q : Insert,
    SqlTree.marks (q.pieces d) = q.marks.filter (Piece.countsFor d)
  | ⟨table, columns, rows, returning⟩ => by
      have hr := marks_returningPieces (Node.isEmpty_pieceGroups returning)
        (Node.marks_pieceGroups returning)
      simp [Insert.pieces, Insert.marks, TableReference.marks_pieces, TableReference.filter_marks,
        marks_columnListPieces, Identifier.filter_flatMap_marks, marks_rowPieces,
        Node.marks_rowGroups rows, hr]

theorem Update.marks_pieces : ∀ q : Update,
    SqlTree.marks (q.pieces d) = q.marks.filter (Piece.countsFor d)
  | ⟨table, updates, condition, returning⟩ => by
      have hr := marks_returningPieces (Node.isEmpty_pieceGroups returning)
        (Node.marks_pieceGroups returning)
      simp [Update.pieces, Update.marks, TableReference.marks_pieces, TableReference.filter_marks,
        ColumnUpdate.marks_pieceGroups updates, Node.marks_clausePieces " where " condition, hr]

theorem Delete.marks_pieces : ∀ q : Delete,
    SqlTree.marks (q.pieces d) = q.marks.filter (Piece.countsFor d)
  | ⟨table, condition, returning⟩ => by
      have hr := marks_returningPieces (Node.isEmpty_pieceGroups returning)
        (Node.marks_pieceGroups returning)
      simp [Delete.pieces, Delete.marks, TableReference.marks_pieces, TableReference.filter_marks,
        Node.marks_clausePieces " where " condition, hr]

end

end

/-- A statement has the marks of its tree as well. -/
theorem Node.marks_statementPieces (d : Dialect) (n : Node) :
    SqlTree.marks (n.statementPieces d) = n.marks.filter (Piece.countsFor d) := by
  cases n with
  | select q => exact Select.marks_pieces d q
  | _ => exact Node.marks_pieces d _

/-- What is picked from a statement is picked from the marks of its tree, if neither text nor an
offence is picked. -/
theorem Node.filterMap_statementPieces {α : Type} {pick : Piece → Option α}
    (ht : ∀ s, pick (.text s) = none) (ho : ∀ o, pick (.offence o) = none) (d : Dialect)
    (n : Node) : (n.statementPieces d).filterMap pick = n.marks.filterMap pick := by
  have hpick : (fun p => if Piece.countsFor d p then pick p else none) = pick := by
    funext p
    cases p with
    | offence o => rw [ho o, ite_self]
    | quoted _ | placeholder _ | text _ => rfl
  rw [← filterMap_marks ht, Node.marks_statementPieces, List.filterMap_filter, hpick]

theorem Node.names_statementPieces (d : Dialect) (n : Node) :
    SqlTree.names (n.statementPieces d) = n.names :=
  Node.filterMap_statementPieces (fun _ => rfl) (fun _ => rfl) d n

/-! ### Offences -/

theorem firstOffence?_eq_head? (ps : List Piece) : firstOffence? ps = (offences ps).head? :=
  List.head?_filterMap.symm

/-- The offences of a statement are those of its tree that the dialect rejects. -/
theorem Node.offences_statementPieces (d : Dialect) (n : Node) :
    SqlTree.offences (n.statementPieces d) = n.offences.filter d.rejects := by
  have hpick : (fun p => if Piece.countsFor d p then p.offence? else none) =
      fun p : Piece => p.offence?.filter d.rejects := by
    funext p
    cases p with
    | offence o => rfl
    | quoted _ | placeholder _ | text _ => rfl
  rw [Node.offences, SqlTree.offences, SqlTree.offences, ← filterMap_marks (fun _ => rfl),
    Node.marks_statementPieces, List.filterMap_filter, List.filter_filterMap, hpick]

theorem Node.firstOffence?_statementPieces (d : Dialect) (n : Node) :
    firstOffence? (n.statementPieces d) = n.offences.find? d.rejects := by
  rw [firstOffence?_eq_head?, Node.offences_statementPieces, List.head?_filter]

/-- What compiling a tree gives: its statement, or the error of its first offence. -/
theorem Node.compile_eq (d : Dialect) (n : Node) :
    n.compile d = match n.offences.find? d.rejects with
      | some o => .error (o.error d)
      | none => .ok ⟨layout d 1 (n.statementPieces d), n.parameters⟩ := by
  have h := Node.compile_eq_ofPieces d n
  rw [Statement.ofPieces, Node.firstOffence?_statementPieces, Node.bindings_statementPieces] at h
  exact h

theorem Node.compile_eq_error_iff {d : Dialect} {n : Node} {e : QueryError} :
    n.compile d = .error e ↔ ∃ o, n.offences.find? d.rejects = some o ∧ e = o.error d := by
  rw [Node.compile_eq]
  cases n.offences.find? d.rejects with
  | none => exact ⟨nofun, nofun⟩
  | some o =>
      refine ⟨fun h => ⟨o, rfl, (Except.error.inj h).symm⟩, ?_⟩
      rintro ⟨o', ho, rfl⟩
      obtain rfl := Option.some.inj ho
      rfl

theorem Node.compile_eq_ok_iff {d : Dialect} {n : Node} {s : Statement} :
    n.compile d = .ok s ↔ (∀ o ∈ n.offences, d.rejects o = false) ∧
      s = ⟨layout d 1 (n.statementPieces d), n.parameters⟩ := by
  have hnone : n.offences.find? d.rejects = none ↔ ∀ o ∈ n.offences, d.rejects o = false := by
    simp
  rw [Node.compile_eq, ← hnone]
  cases n.offences.find? d.rejects with
  | none => exact ⟨fun h => ⟨rfl, (Except.ok.inj h).symm⟩, fun ⟨_, h⟩ => h ▸ rfl⟩
  | some o => exact ⟨nofun, nofun⟩

/-- **Offences.**  Compiling a tree fails exactly if it has an offence that the dialect rejects; the
error is that of the first such offence in the order of writing.  Every other tree has a
statement. -/
theorem compile_offences (d : Dialect) (n : Node) :
    ((∃ e, n.compile d = .error e) ↔ ∃ o ∈ n.offences, d.rejects o) ∧
    (∀ e, n.compile d = .error e ↔ ∃ o, n.offences.find? d.rejects = some o ∧ e = o.error d) ∧
    ((∃ s, n.compile d = .ok s) ↔ ∀ o ∈ n.offences, d.rejects o = false) := by
  refine ⟨?_, fun e => Node.compile_eq_error_iff, fun ⟨s, h⟩ => (Node.compile_eq_ok_iff.mp h).1,
    fun h => ⟨_, Node.compile_eq_ok_iff.mpr ⟨h, rfl⟩⟩⟩
  rw [← List.find?_isSome, Option.isSome_iff_exists]
  constructor
  · rintro ⟨e, h⟩
    obtain ⟨o, ho, -⟩ := Node.compile_eq_error_iff.mp h
    exact ⟨o, ho⟩
  · rintro ⟨o, ho⟩
    exact ⟨_, Node.compile_eq_error_iff.mpr ⟨o, ho, rfl⟩⟩

/-- What stands in the rows of an insert comes before its returning clause, and that clause before
what it returns. -/
example : (Node.insert {
    table := { name := ⟨"t", false⟩ }
    rows := [[.columnDefinition default]]
    returning := [.rawFragment [] []] }).offences =
      [.strayColumnDefinition, .returning, .rawFragment 0 0] := by
  rfl

end SqlTree
