import SqlTree.Proofs.Statement.Pieces
import SqlTree.Statement.Compile

/-!
# Statements — the pass writes the pieces

The pass over a tree and the list of its pieces are two readings of one statement.  `Node.write_eq`
says that writing a node is writing its pieces one after another, and `run_writePieces` says what
that adds to a statement: the layout of the pieces behind the text and their values behind the
bindings, or the error of the first offence.

**The statement of a tree** (`Node.compile_eq_ofPieces`) is therefore read off the pieces of the
tree, from the first placeholder on.
-/

namespace SqlTree
open Writer

/-! ### Writing pieces -/

def Piece.write (d : Dialect) : Piece → Writer Unit
  | .quoted name => push (d.quoted name)
  | .placeholder v => pushValue d v
  | .text s => push s
  | .offence o => fail d o

def writePieces (d : Dialect) : List Piece → Writer Unit
  | [] => pure ()
  | p :: ps => do
    p.write d
    writePieces d ps

section
variable {d : Dialect}

@[simp] theorem writePieces_nil : writePieces d [] = pure () := rfl

@[simp] theorem writePieces_cons (p : Piece) (ps : List Piece) :
    writePieces d (p :: ps) = (do p.write d; writePieces d ps) := rfl

@[simp] theorem writePieces_append (ps qs : List Piece) :
    writePieces d (ps ++ qs) = (do writePieces d ps; writePieces d qs) := by
  induction ps with
  | nil => simp
  | cons p ps ih => simp [ih]

@[simp] theorem Piece.write_quoted (name : String) :
    (Piece.quoted name).write d = push (d.quoted name) := rfl

@[simp] theorem Piece.write_placeholder (v : Value) :
    (Piece.placeholder v).write d = pushValue d v := rfl

@[simp] theorem Piece.write_text (s : String) : (Piece.text s).write d = push s := rfl

@[simp] theorem Piece.write_offence (o : Offence) : (Piece.offence o).write d = fail d o := rfl

@[simp] theorem fail_bind (o : Offence) (f : Unit → Writer Unit) :
    (fail d o >>= f) = fail d o := rfl

@[simp] theorem require_true (o : Offence) : require d true o = pure () := rfl

@[simp] theorem require_false (o : Offence) : require d false o = fail d o := rfl

/-- What writing pieces adds to a statement. -/
theorem run_writePieces (ps : List Piece) (w : Statement) :
    (writePieces d ps).run w =
      match firstOffence? ps with
      | some o => .error (o.error d)
      | none => .ok ((), ⟨w.sql ++ layout d (w.bindings.length + 1) ps,
          w.bindings ++ bindings ps⟩) := by
  -- what has been written is general: each piece changes what the rest is added to
  induction ps generalizing w with
  | nil =>
      simp
      rfl
  | cons p ps ih =>
      cases p with
      | quoted _ | text _ => simp [push, ih, String.append_assoc]
      | placeholder v => simp [pushValue, push, ih, String.append_assoc]
      | offence o => rfl

/-! ### The writer's own steps -/

theorem pushIf_eq (written : Bool) (s : String) :
    pushIf written s = writePieces d (Piece.textIf written s) := by
  cases written <;> simp [pushIf, Piece.textIf]

/-- The pieces of items with a comma in front of every item but the first. -/
def Piece.separated (isFirst : Bool) : List (List Piece) → List Piece
  | [] => []
  | g :: gs => textIf (!isFirst) ", " ++ g ++ Piece.separated false gs

theorem Piece.commaSeparated_eq : ∀ gs : List (List Piece),
    Piece.commaSeparated gs = Piece.separated true gs
  | [] => rfl
  | [g] => by simp [separated, textIf]
  | g :: h :: gs => by
      rw [commaSeparated_cons_cons, Piece.commaSeparated_eq (h :: gs)]
      simp [separated, textIf]

@[simp] theorem writePieces_separated_cons (isFirst : Bool) (g : List Piece)
    (gs : List (List Piece)) :
    writePieces d (Piece.separated isFirst (g :: gs)) =
      (do separate isFirst; writePieces d g; writePieces d (Piece.separated false gs)) := by
  simp [Piece.separated, separate, pushIf_eq (d := d)]

theorem pushItems_eq {α : Type} {write : α → Writer Unit} {pieces : α → List Piece}
    (h : ∀ a, write a = writePieces d (pieces a)) : ∀ (isFirst : Bool) (as : List α),
    pushItems write isFirst as = writePieces d (Piece.separated isFirst (as.map pieces))
  | _, [] => rfl
  | isFirst, a :: as => by simp [pushItems, h, pushItems_eq h false as]

theorem pushOperand_eq (parens : Bool) (ps : List Piece) :
    pushOperand parens (writePieces d ps) = writePieces d (Piece.parenthesizedIf parens ps) := by
  cases parens <;> simp [pushOperand, pushIf, Piece.parenthesizedIf, Piece.parenthesized]

/-- A clause of several parts.  The writer looks at the parts, the pieces look at their groups. -/
theorem pushClause_eq {isEmpty : Bool} {groups : List (List Piece)} (h : groups.isEmpty = isEmpty)
    (opening : String) :
    pushClause opening isEmpty (writePieces d (Piece.separated true groups)) =
      writePieces d (Piece.clause opening groups) := by
  subst h
  cases groups <;> simp [pushClause, Piece.clause, Piece.commaSeparated_eq]

theorem pushSelections_eq {isEmpty : Bool} {groups : List (List Piece)}
    (h : groups.isEmpty = isEmpty) :
    pushSelections isEmpty (writePieces d (Piece.separated true groups)) =
      writePieces d (selectionPieces groups) := by
  subst h
  cases groups <;> simp [pushSelections, selectionPieces, Piece.commaSeparated_eq]

theorem pushRows_eq {isEmpty : Bool} {rows : List (List Piece)} (h : rows.isEmpty = isEmpty) :
    pushRows d isEmpty (writePieces d (Piece.separated true rows)) =
      writePieces d (rowPieces d rows) := by
  subst h
  cases rows <;> simp [pushRows, rowPieces, Piece.commaSeparated_eq]

theorem pushReturning_eq {isEmpty : Bool} {groups : List (List Piece)}
    (h : groups.isEmpty = isEmpty) :
    pushReturning d isEmpty (writePieces d (Piece.separated true groups)) =
      writePieces d (returningPieces d groups) := by
  subst h
  rw [pushReturning, pushClause_eq rfl]
  cases hd : d.supportsReturning <;> cases groups <;> simp [returningPieces, Piece.clause, hd]

/-- The offset is written when it has a limit beside it or needs none. -/
theorem require_offset (hasLimit : Bool) (offset : List Piece) :
    (do
      require d (offset.isEmpty || hasLimit || d.supportsOffsetWithoutLimit) .offsetWithoutLimit
      writePieces d offset) = writePieces d (offsetPieces d hasLimit offset) := by
  cases hd : d.supportsOffsetWithoutLimit <;> cases offset <;> cases hasLimit <;>
    simp [offsetPieces, hd]

theorem forM_push (ts : List String) : forM ts push = writePieces d (ts.map .text) := by
  induction ts with
  | nil => rfl
  | cons t ts ih => simp [ih]

/-! ### Names, tables and columns -/

theorem Identifier.write_eq (id : Identifier) : id.write d = (Piece.ofIdentifier id).write d := by
  cases h : id.raw <;> simp [Identifier.write, Piece.ofIdentifier, h]

theorem Identifier.writeQualifier_eq (id? : Option Identifier) :
    Identifier.writeQualifier d id? = writePieces d (qualifierPieces id?) := by
  cases id? <;> simp [Identifier.writeQualifier, qualifierPieces, Identifier.write_eq]

theorem Identifier.writeAlias_eq (id? : Option Identifier) :
    Identifier.writeAlias d id? = writePieces d (aliasPieces id?) := by
  cases id? <;> simp [Identifier.writeAlias, aliasPieces, Identifier.write_eq]

theorem ColumnReference.write_eq (c : ColumnReference) : c.write d = writePieces d c.pieces := by
  simp [ColumnReference.write, ColumnReference.pieces, Identifier.write_eq,
    Identifier.writeQualifier_eq]

theorem TableReference.write_eq (t : TableReference) : t.write d = writePieces d t.pieces := by
  simp [TableReference.write, TableReference.pieces, Identifier.write_eq,
    Identifier.writeQualifier_eq, Identifier.writeAlias_eq]

theorem ColumnDefinition.write_eq (c : ColumnDefinition) :
    c.write d = writePieces d (c.pieces d) := by
  simp [ColumnDefinition.write, ColumnDefinition.pieces, Identifier.write_eq, pushIf_eq (d := d)]

theorem CreateTable.write_eq (q : CreateTable) : q.write d = writePieces d (q.pieces d) := by
  simp [CreateTable.write, CreateTable.pieces, TableReference.write_eq, Piece.commaSeparated_eq,
    pushItems_eq ColumnDefinition.write_eq, pushIf_eq (d := d)]

theorem DropTable.write_eq (q : DropTable) : q.write d = writePieces d q.pieces := by
  simp [DropTable.write, DropTable.pieces, TableReference.write_eq, pushIf_eq (d := d)]

theorem Insert.writeColumns_eq (columns : List Identifier) :
    Insert.writeColumns d columns = writePieces d (columnListPieces columns) := by
  have h (c : Identifier) : c.write d = writePieces d [.ofIdentifier c] := by
    simp [Identifier.write_eq]
  cases columns <;>
    simp [Insert.writeColumns, columnListPieces, pushClause, pushIf, Piece.commaSeparated_eq,
      pushItems_eq h]

/-! ### Nodes -/

mutual

/-- **Writing a node is writing its pieces.** -/
theorem Node.write_eq (d : Dialect) : ∀ n : Node, n.write d = writePieces d (n.pieces d)
  | .identifier id => by simp [Node.write, Node.pieces, Identifier.write_eq]
  | .columnReference c => by rw [Node.write, Node.pieces, ColumnReference.write_eq]
  | .tableReference t => by rw [Node.write, Node.pieces, TableReference.write_eq]
  | .aliased expr name => by
      simp [Node.write, Node.pieces, aliasPieces, Node.write_eq d expr, Identifier.write_eq]
  | .wildcard table => by simp [Node.write, Node.pieces, Identifier.writeQualifier_eq]
  | .join j => by rw [Node.write, Node.pieces, Join.write_eq d j]
  | .orderItem item => by rw [Node.write, Node.pieces, OrderItem.write_eq d item]
  | .binary l op r => by
      simp [Node.write, Node.pieces, Node.write_eq d l, Node.write_eq d r, pushOperand_eq]
  | .unary op n => by
      cases op <;> simp [Node.write, Node.pieces, unaryPieces, Node.write_eq d n, pushOperand_eq]
  | .call function args => by
      simp [Node.write, Node.pieces, Piece.parenthesized, Piece.commaSeparated_eq,
        Node.writeList_eq d true args]
  | .valueList items => by
      simp [Node.write, Node.pieces, Piece.parenthesized, Piece.commaSeparated_eq,
        Node.writeList_eq d true items]
  | .columnUpdate u => by rw [Node.write, Node.pieces, ColumnUpdate.write_eq d u]
  | .columnDefinition _ => by simp [Node.write, Node.pieces]
  | .select q => by simp [Node.write, Node.pieces, Piece.parenthesized, Select.write_eq d q]
  | .insert q => by rw [Node.write, Node.pieces, Insert.write_eq d q]
  | .update q => by rw [Node.write, Node.pieces, Update.write_eq d q]
  | .delete q => by rw [Node.write, Node.pieces, Delete.write_eq d q]
  | .createTable q => by rw [Node.write, Node.pieces, CreateTable.write_eq]
  | .dropTable q => by rw [Node.write, Node.pieces, DropTable.write_eq]
  | .rawFragment texts bindings => by
      simp only [Node.write, Node.pieces, rawPieces, Node.length_pieceGroups]
      by_cases h : texts.length = bindings.length + 1
      · simp [h, Node.writeSpliced_eq d bindings texts (by omega)]
      · -- refused before any of it is written
        rw [beq_eq_false_iff_ne.mpr h, if_neg h]
        simp
  | .parameter v => by simp [Node.write, Node.pieces]

theorem Node.writeList_eq (d : Dialect) : ∀ (isFirst : Bool) (ns : List Node),
    Node.writeList d isFirst ns = writePieces d (Piece.separated isFirst (Node.pieceGroups d ns))
  | _, [] => rfl
  | isFirst, n :: ns => by
      simp [Node.writeList, Node.pieceGroups, Node.write_eq d n, Node.writeList_eq d false ns]

theorem Node.writeClause_eq (d : Dialect) (opening : String) : ∀ n? : Option Node,
    Node.writeClause d opening n? = writePieces d (Node.clausePieces d opening n?)
  | none => rfl
  | some n => by simp [Node.writeClause, Node.clausePieces, Node.write_eq d n]

theorem Node.writeSpliced_eq (d : Dialect) : ∀ (bs : List Node) (ts : List String),
    bs.length ≤ ts.length →
      Node.writeSpliced d bs ts = writePieces d (splice ts (Node.pieceGroups d bs))
  | [], [], _ => rfl
  | [], t :: ts, _ => by
      simp [Node.writeSpliced, Node.pieceGroups, splice, forM_push (d := d)]
  | b :: bs, t :: ts, h => by
      simp [Node.writeSpliced, Node.pieceGroups, splice, Node.write_eq d b,
        Node.writeSpliced_eq d bs ts (by simpa using h)]

theorem Node.writeRows_eq (d : Dialect) : ∀ (isFirst : Bool) (rs : List (List Node)),
    Node.writeRows d isFirst rs = writePieces d (Piece.separated isFirst (Node.rowGroups d rs))
  | _, [] => rfl
  | isFirst, r :: rs => by
      simp [Node.writeRows, Node.rowGroups, Piece.parenthesized, Piece.commaSeparated_eq,
        Node.writeList_eq d true r, Node.writeRows_eq d false rs]

theorem Join.write_eq (d : Dialect) : ∀ j : Join, j.write d = writePieces d (j.pieces d)
  | ⟨joinType, target, condition⟩ => by
      simp [Join.write, Join.pieces, Node.write_eq d target, Node.writeClause_eq d " on " condition]

theorem Join.writeList_eq (d : Dialect) : ∀ js : List Join,
    Join.writeList d js = writePieces d (Join.listPieces d js)
  | [] => rfl
  | j :: js => by
      simp [Join.writeList, Join.listPieces, Join.write_eq d j, Join.writeList_eq d js]

theorem OrderItem.write_eq (d : Dialect) : ∀ i : OrderItem,
    i.write d = writePieces d (i.pieces d)
  | ⟨expr, direction⟩ => by simp [OrderItem.write, OrderItem.pieces, Node.write_eq d expr]

theorem OrderItem.writeList_eq (d : Dialect) : ∀ (isFirst : Bool) (is : List OrderItem),
    OrderItem.writeList d isFirst is =
      writePieces d (Piece.separated isFirst (OrderItem.pieceGroups d is))
  | _, [] => rfl
  | isFirst, i :: is => by
      simp [OrderItem.writeList, OrderItem.pieceGroups, OrderItem.write_eq d i,
        OrderItem.writeList_eq d false is]

theorem ColumnUpdate.write_eq (d : Dialect) : ∀ u : ColumnUpdate,
    u.write d = writePieces d (u.pieces d)
  | ⟨column, value⟩ => by
      simp [ColumnUpdate.write, ColumnUpdate.pieces, Identifier.write_eq, Node.write_eq d value]

theorem ColumnUpdate.writeList_eq (d : Dialect) : ∀ (isFirst : Bool) (us : List ColumnUpdate),
    ColumnUpdate.writeList d isFirst us =
      writePieces d (Piece.separated isFirst (ColumnUpdate.pieceGroups d us))
  | _, [] => rfl
  | isFirst, u :: us => by
      simp [ColumnUpdate.writeList, ColumnUpdate.pieceGroups, ColumnUpdate.write_eq d u,
        ColumnUpdate.writeList_eq d false us]

theorem Select.write_eq (d : Dialect) : ∀ q : Select, q.write d = writePieces d (q.pieces d)
  | ⟨distinct, selections, sources, joins, condition, grouping, having, ordering, limit, offset⟩ =>
    by
      -- the check stands in front of the offset, in the pass as in the pieces
      have ho := require_offset (d := d) limit.isSome (Node.clausePieces d " offset " offset)
      simp only [Select.write, Select.pieces, Node.writeList_eq d true,
        OrderItem.writeList_eq d true, Node.writeClause_eq d, Join.writeList_eq d joins,
        pushIf_eq (d := d), pushSelections_eq (Node.isEmpty_pieceGroups selections),
        pushClause_eq (Node.isEmpty_pieceGroups _), pushClause_eq (OrderItem.isEmpty_pieceGroups _),
        ← ho, Node.isEmpty_clausePieces, writePieces_append, writePieces_cons, Piece.write_text,
        bind_assoc]

theorem Insert.write_eq (d : Dialect) : ∀ q : Insert, q.write d = writePieces d (q.pieces d)
  | ⟨table, columns, rows, returning⟩ => by
      simp only [Insert.write, Insert.pieces, TableReference.write_eq, Insert.writeColumns_eq,
        Node.writeRows_eq d true rows, Node.writeList_eq d true returning,
        pushRows_eq (Node.isEmpty_rowGroups rows),
        pushReturning_eq (Node.isEmpty_pieceGroups returning), writePieces_append, writePieces_cons,
        Piece.write_text, bind_assoc]

theorem Update.write_eq (d : Dialect) : ∀ q : Update, q.write d = writePieces d (q.pieces d)
  | ⟨table, updates, condition, returning⟩ => by
      simp only [Update.write, Update.pieces, TableReference.write_eq,
        ColumnUpdate.writeList_eq d true updates, Node.writeClause_eq d " where " condition,
        Node.writeList_eq d true returning, pushReturning_eq (Node.isEmpty_pieceGroups returning),
        Piece.commaSeparated_eq, writePieces_append, writePieces_cons, Piece.write_text, bind_assoc]

theorem Delete.write_eq (d : Dialect) : ∀ q : Delete, q.write d = writePieces d (q.pieces d)
  | ⟨table, condition, returning⟩ => by
      simp only [Delete.write, Delete.pieces, TableReference.write_eq,
        Node.writeClause_eq d " where " condition, Node.writeList_eq d true returning,
        pushReturning_eq (Node.isEmpty_pieceGroups returning), writePieces_append,
        writePieces_cons, Piece.write_text, bind_assoc]

end

end

/-- The statement of a node is written piece by piece as well. -/
theorem Node.writeStatement_eq (d : Dialect) (n : Node) :
    n.writeStatement d = writePieces d (n.statementPieces d) := by
  cases n with
  | select q => exact Select.write_eq d q
  | _ => exact Node.write_eq d _

/-- **The statement of a tree is read off its pieces.** -/
theorem Node.compile_eq_ofPieces (d : Dialect) (n : Node) :
    n.compile d = Statement.ofPieces d (n.statementPieces d) := by
  simp only [Node.compile, Node.writeStatement_eq, run_writePieces, Statement.ofPieces]
  cases firstOffence? (n.statementPieces d) with
  | none => simp [Statement.empty, Functor.map, Except.map]
  | some o => rfl

end SqlTree
