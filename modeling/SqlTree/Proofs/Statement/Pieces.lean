import SqlTree.Proofs.Statement.Piece
import SqlTree.Statement.Grouping

/-!
# Statements — the pieces of a tree

`Node.pieces` lists the pieces of a tree from left to right.  A query inside another one stands in
parentheses, and an operand stands in parentheses where it would otherwise be grouped differently:
`Node.leftParens`, `Node.rightParens` and `Node.isAtomic` decide that.
-/

namespace SqlTree

/-- A name and the dot behind it, if there is a name. -/
def qualifierPieces : Option Identifier → List Piece
  | none => []
  | some id => [.ofIdentifier id, .text "."]

def aliasPieces : Option Identifier → List Piece
  | none => []
  | some id => [.text " as ", .ofIdentifier id]

def ColumnReference.pieces (c : ColumnReference) : List Piece :=
  qualifierPieces c.table ++ [.ofIdentifier c.column]

def TableReference.pieces (t : TableReference) : List Piece :=
  qualifierPieces t.schema ++ .ofIdentifier t.name :: aliasPieces t.aliasName

/-- A column with its type and its constraints. -/
def ColumnDefinition.pieces (d : Dialect) (c : ColumnDefinition) : List Piece :=
  [.ofIdentifier c.column, .text " ",
    .text (if c.autoincrement then d.autoincrementKey else d.typeName c.dataType)] ++
  Piece.textIf (!c.autoincrement && c.primaryKey) " primary key" ++
  Piece.textIf c.notNull " not null"

def CreateTable.pieces (d : Dialect) (q : CreateTable) : List Piece :=
  .text "create table " :: Piece.textIf q.ifNotExists "if not exists " ++
    q.table.pieces ++ .text " (" ::
    Piece.commaSeparated (q.columns.map (ColumnDefinition.pieces d)) ++ [.text ")"]

def DropTable.pieces (q : DropTable) : List Piece :=
  .text "drop table " :: Piece.textIf q.ifExists "if exists " ++ q.table.pieces

/-- The columns an insert gives values for. -/
def columnListPieces (columns : List Identifier) : List Piece :=
  if columns.isEmpty then []
  else
    .text " (" :: Piece.commaSeparated (columns.map fun c => [.ofIdentifier c]) ++ [.text ")"]

/-- What is selected; nothing in particular is everything. -/
def selectionPieces (groups : List (List Piece)) : List Piece :=
  if groups.isEmpty then [.text "*"] else Piece.commaSeparated groups

/-- The rows of an insert, each between parentheses. -/
def rowPieces (d : Dialect) (rows : List (List Piece)) : List Piece :=
  if rows.isEmpty then [.text " ", .text d.defaultValues]
  else .text " values " :: Piece.commaSeparated rows

/-- A returning clause.  Where it is not supported, the offence comes before what it returns. -/
def returningPieces (d : Dialect) (groups : List (List Piece)) : List Piece :=
  if groups.isEmpty then []
  else
    (if d.supportsReturning then [] else [.offence .returning]) ++
      Piece.clause " returning " groups

/-- An offset clause.  Where it needs a limit, the offence comes before the offset itself. -/
def offsetPieces (d : Dialect) (hasLimit : Bool) (offset : List Piece) : List Piece :=
  if offset.isEmpty then []
  else
    (if hasLimit || d.supportsOffsetWithoutLimit then [] else [.offence .offsetWithoutLimit]) ++
      offset

/-- The pieces of a unary operation on the pieces of its operand. -/
def unaryPieces (op : UnaryOperator) (atomic : Bool) (operand : List Piece) : List Piece :=
  match op with
  | .not => .text "not " :: Piece.parenthesizedIf (!atomic) operand
  | .negate => .text "-" :: Piece.parenthesizedIf (!atomic) operand
  | .exists => .text "exists " :: operand
  | .notExists => .text "not exists " :: operand
  | .isNull => Piece.parenthesizedIf (!atomic) operand ++ [.text " is null"]
  | .isNotNull => Piece.parenthesizedIf (!atomic) operand ++ [.text " is not null"]

/-- The texts of a raw fragment with the pieces of its bindings between them. -/
def splice : List String → List (List Piece) → List Piece
  | t :: ts, b :: bs => .text t :: b ++ splice ts bs
  | ts, [] => ts.map .text
  | [], b :: bs => b ++ splice [] bs

/-- A raw fragment.  Where its texts are not one more than its bindings, the offence comes before
both. -/
def rawPieces (texts : List String) (bindings : List (List Piece)) : List Piece :=
  (if texts.length = bindings.length + 1 then []
    else [.offence (.rawFragment texts.length bindings.length)]) ++ splice texts bindings

mutual

/-- The pieces of a node inside a statement. -/
def Node.pieces (d : Dialect) : Node → List Piece
  | .identifier id => [.ofIdentifier id]
  | .columnReference c => c.pieces
  | .tableReference t => t.pieces
  | .aliased expr name => expr.pieces d ++ aliasPieces (some name)
  | .wildcard table => qualifierPieces table ++ [.text "*"]
  | .join j => j.pieces d
  | .orderItem item => item.pieces d
  | .binary l op r =>
    Piece.parenthesizedIf (l.leftParens op) (l.pieces d) ++
      [.text " ", .text op.sql, .text " "] ++
      Piece.parenthesizedIf (r.rightParens op) (r.pieces d)
  | .unary op n => unaryPieces op n.isAtomic (n.pieces d)
  | .call function args =>
    .text function :: Piece.parenthesized (Piece.commaSeparated (Node.pieceGroups d args))
  | .valueList items => Piece.parenthesized (Piece.commaSeparated (Node.pieceGroups d items))
  | .columnUpdate u => u.pieces d
  | .columnDefinition _ => [.offence .strayColumnDefinition]
  | .select q => Piece.parenthesized (q.pieces d)
  | .insert q => q.pieces d
  | .update q => q.pieces d
  | .delete q => q.pieces d
  | .createTable q => q.pieces d
  | .dropTable q => q.pieces
  | .rawFragment texts bindings => rawPieces texts (Node.pieceGroups d bindings)
  | .parameter v => [.placeholder v]

/-- The pieces of each node of a list. -/
def Node.pieceGroups (d : Dialect) : List Node → List (List Piece)
  | [] => []
  | n :: ns => n.pieces d :: Node.pieceGroups d ns

/-- A clause of one node, left out when the node is absent. -/
def Node.clausePieces (d : Dialect) (opening : String) : Option Node → List Piece
  | none => []
  | some n => .text opening :: n.pieces d

/-- The pieces of each row of values, between parentheses. -/
def Node.rowGroups (d : Dialect) : List (List Node) → List (List Piece)
  | [] => []
  | r :: rs =>
    Piece.parenthesized (Piece.commaSeparated (Node.pieceGroups d r)) :: Node.rowGroups d rs

def Join.pieces (d : Dialect) : Join → List Piece
  | ⟨joinType, target, condition⟩ =>
    [.text joinType.sql, .text " "] ++ target.pieces d ++ Node.clausePieces d " on " condition

/-- The pieces of a list of joins, each behind a blank. -/
def Join.listPieces (d : Dialect) : List Join → List Piece
  | [] => []
  | j :: js => .text " " :: j.pieces d ++ Join.listPieces d js

def OrderItem.pieces (d : Dialect) : OrderItem → List Piece
  | ⟨expr, direction⟩ => expr.pieces d ++ [.text " ", .text direction.sql]

def OrderItem.pieceGroups (d : Dialect) : List OrderItem → List (List Piece)
  | [] => []
  | i :: is => i.pieces d :: OrderItem.pieceGroups d is

def ColumnUpdate.pieces (d : Dialect) : ColumnUpdate → List Piece
  | ⟨column, value⟩ => [.ofIdentifier column, .text " = "] ++ value.pieces d

def ColumnUpdate.pieceGroups (d : Dialect) : List ColumnUpdate → List (List Piece)
  | [] => []
  | u :: us => u.pieces d :: ColumnUpdate.pieceGroups d us

/-- The pieces of a select, without parentheses around it. -/
def Select.pieces (d : Dialect) : Select → List Piece
  | ⟨distinct, selections, sources, joins, condition, grouping, having, ordering, limit, offset⟩ =>
    .text "select " :: Piece.textIf distinct "distinct " ++
      selectionPieces (Node.pieceGroups d selections) ++
      Piece.clause " from " (Node.pieceGroups d sources) ++
      Join.listPieces d joins ++
      Node.clausePieces d " where " condition ++
      Piece.clause " group by " (Node.pieceGroups d grouping) ++
      Node.clausePieces d " having " having ++
      Piece.clause " order by " (OrderItem.pieceGroups d ordering) ++
      Node.clausePieces d " limit " limit ++
      offsetPieces d limit.isSome (Node.clausePieces d " offset " offset)

def Insert.pieces (d : Dialect) : Insert → List Piece
  | ⟨table, columns, rows, returning⟩ =>
    .text "insert into " :: table.pieces ++ columnListPieces columns ++
      rowPieces d (Node.rowGroups d rows) ++
      returningPieces d (Node.pieceGroups d returning)

def Update.pieces (d : Dialect) : Update → List Piece
  | ⟨table, updates, condition, returning⟩ =>
    .text "update " :: table.pieces ++ .text " set " ::
      Piece.commaSeparated (ColumnUpdate.pieceGroups d updates) ++
      Node.clausePieces d " where " condition ++
      returningPieces d (Node.pieceGroups d returning)

def Delete.pieces (d : Dialect) : Delete → List Piece
  | ⟨table, condition, returning⟩ =>
    .text "delete from " :: table.pieces ++ Node.clausePieces d " where " condition ++
      returningPieces d (Node.pieceGroups d returning)

end

section
variable {d : Dialect}

@[simp] theorem Node.length_pieceGroups (ns : List Node) :
    (Node.pieceGroups d ns).length = ns.length := by
  induction ns with
  | nil => rfl
  | cons n ns ih => rw [Node.pieceGroups, List.length_cons, List.length_cons, ih]

@[simp] theorem Node.isEmpty_pieceGroups (ns : List Node) :
    (Node.pieceGroups d ns).isEmpty = ns.isEmpty := by
  cases ns <;> rfl

@[simp] theorem Node.isEmpty_rowGroups (rs : List (List Node)) :
    (Node.rowGroups d rs).isEmpty = rs.isEmpty := by
  cases rs <;> rfl

@[simp] theorem OrderItem.isEmpty_pieceGroups (is : List OrderItem) :
    (OrderItem.pieceGroups d is).isEmpty = is.isEmpty := by
  cases is <;> rfl

@[simp] theorem Node.isEmpty_clausePieces (opening : String) (n? : Option Node) :
    (Node.clausePieces d opening n?).isEmpty = n?.isNone := by
  cases n? <;> rfl

end

/-- The pieces of a node as a statement of its own: a select has no parentheses there. -/
def Node.statementPieces (d : Dialect) : Node → List Piece
  | .select q => q.pieces d
  | n => n.pieces d

end SqlTree
