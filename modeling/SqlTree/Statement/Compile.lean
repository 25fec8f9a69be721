import SqlTree.Statement.Grouping
import SqlTree.Statement.Writer

/-!
# Statements — compiling

`Node.compile` writes a tree for a dialect: the text with a placeholder for every value, and the
values in the order of their placeholders.  A query inside another one stands in parentheses; a
query that is a statement of its own does not.
-/

namespace SqlTree
open Writer

def Identifier.write (d : Dialect) (id : Identifier) : Writer Unit :=
  push (if id.raw then id.name else d.quoted id.name)

/-- Writes a name and the dot behind it, if there is a name. -/
def Identifier.writeQualifier (d : Dialect) : Option Identifier → Writer Unit
  | none => pure ()
  | some id => do
    id.write d
    push "."

def Identifier.writeAlias (d : Dialect) : Option Identifier → Writer Unit
  | none => pure ()
  | some id => do
    push " as "
    id.write d

def ColumnReference.write (d : Dialect) (c : ColumnReference) : Writer Unit := do
  Identifier.writeQualifier d c.table
  c.column.write d

def TableReference.write (d : Dialect) (t : TableReference) : Writer Unit := do
  Identifier.writeQualifier d t.schema
  t.name.write d
  Identifier.writeAlias d t.aliasName

def ColumnDefinition.write (d : Dialect) (c : ColumnDefinition) : Writer Unit := do
  c.column.write d
  push " "
  push (if c.autoincrement then d.autoincrementKey else d.typeName c.dataType)
  pushIf (!c.autoincrement && c.primaryKey) " primary key"
  pushIf c.notNull " not null"

def CreateTable.write (d : Dialect) (q : CreateTable) : Writer Unit := do
  push "create table "
  pushIf q.ifNotExists "if not exists "
  q.table.write d
  push " ("
  pushItems (ColumnDefinition.write d) true q.columns
  push ")"

def DropTable.write (d : Dialect) (q : DropTable) : Writer Unit := do
  push "drop table "
  pushIf q.ifExists "if exists "
  q.table.write d

/-- Writes the columns an insert gives values for. -/
def Insert.writeColumns (d : Dialect) (columns : List Identifier) : Writer Unit := do
  pushClause " (" columns.isEmpty (pushItems (Identifier.write d) true columns)
  pushIf (!columns.isEmpty) ")"

mutual

/-- Writes a node inside a statement. -/
def Node.write (d : Dialect) : Node → Writer Unit
  | .identifier id => id.write d
  | .columnReference c => c.write d
  | .tableReference t => t.write d
  | .aliased expr name => do
    expr.write d
    push " as "
    name.write d
  | .wildcard table => do
    Identifier.writeQualifier d table
    push "*"
  | .join j => j.write d
  | .orderItem item => item.write d
  | .binary l op r => do
    pushOperand (l.leftParens op) (l.write d)
    push " "
    push op.sql
    push " "
    pushOperand (r.rightParens op) (r.write d)
  | .unary .not n => do
    push "not "
    pushOperand (!n.isAtomic) (n.write d)
  | .unary .negate n => do
    push "-"
    pushOperand (!n.isAtomic) (n.write d)
  | .unary .exists n => do
    push "exists "
    n.write d
  | .unary .notExists n => do
    push "not exists "
    n.write d
  | .unary .isNull n => do
    pushOperand (!n.isAtomic) (n.write d)
    push " is null"
  | .unary .isNotNull n => do
    pushOperand (!n.isAtomic) (n.write d)
    push " is not null"
  | .call function args => do
    push function
    push "("
    Node.writeList d true args
    push ")"
  | .valueList items => do
    push "("
    Node.writeList d true items
    push ")"
  | .columnUpdate u => u.write d
  -- a create table writes its columns without coming by here
  | .columnDefinition _ => fail d .strayColumnDefinition
  | .select q => do
    push "("
    q.write d
    push ")"
  | .insert q => q.write d
  | .update q => q.write d
  | .delete q => q.write d
  | .createTable q => q.write d
  | .dropTable q => q.write d
  | .rawFragment texts bindings => do
    require d (texts.length == bindings.length + 1) (.rawFragment texts.length bindings.length)
    Node.writeSpliced d bindings texts
  | .parameter v => pushValue d v

def Node.writeList (d : Dialect) (isFirst : Bool) : List Node → Writer Unit
  | [] => pure ()
  | n :: ns => do
    separate isFirst
    n.write d
    Node.writeList d false ns

/-- Writes a clause of one node, if there is one. -/
def Node.writeClause (d : Dialect) (opening : String) : Option Node → Writer Unit
  | none => pure ()
  | some n => do
    push opening
    n.write d

/-- Writes texts, and behind each of them the binding in its place. -/
def Node.writeSpliced (d : Dialect) : List Node → List String → Writer Unit
  | _, [] => pure ()
  -- behind the last binding all texts that are left
  | [], t :: ts => do
    push t
    ts.forM push
  | b :: bs, t :: ts => do
    push t
    b.write d
    Node.writeSpliced d bs ts

/-- Writes rows of values, each between parentheses. -/
def Node.writeRows (d : Dialect) (isFirst : Bool) : List (List Node) → Writer Unit
  | [] => pure ()
  | r :: rs => do
    separate isFirst
    push "("
    Node.writeList d true r
    push ")"
    Node.writeRows d false rs

def Join.write (d : Dialect) : Join → Writer Unit
  | ⟨joinType, target, condition⟩ => do
    push joinType.sql
    push " "
    target.write d
    Node.writeClause d " on " condition

def Join.writeList (d : Dialect) : List Join → Writer Unit
  | [] => pure ()
  | j :: js => do
    push " "
    j.write d
    Join.writeList d js

def OrderItem.write (d : Dialect) : OrderItem → Writer Unit
  | ⟨expr, direction⟩ => do
    expr.write d
    push " "
    push direction.sql

def OrderItem.writeList (d : Dialect) (isFirst : Bool) : List OrderItem → Writer Unit
  | [] => pure ()
  | i :: is => do
    separate isFirst
    i.write d
    OrderItem.writeList d false is

def ColumnUpdate.write (d : Dialect) : ColumnUpdate → Writer Unit
  | ⟨column, value⟩ => do
    column.write d
    push " = "
    value.write d

def ColumnUpdate.writeList (d : Dialect) (isFirst : Bool) : List ColumnUpdate → Writer Unit
  | [] => pure ()
  | u :: us => do
    separate isFirst
    u.write d
    ColumnUpdate.writeList d false us

/-- Writes a select, without parentheses around it. -/
def Select.write (d : Dialect) : Select → Writer Unit
  | ⟨distinct, selections, sources, joins, condition, grouping, having, ordering, limit, offset⟩ =>
    do
    push "select "
    pushIf distinct "distinct "
    pushSelections selections.isEmpty (Node.writeList d true selections)
    pushClause " from " sources.isEmpty (Node.writeList d true sources)
    Join.writeList d joins
    Node.writeClause d " where " condition
    pushClause " group by " grouping.isEmpty (Node.writeList d true grouping)
    Node.writeClause d " having " having
    pushClause " order by " ordering.isEmpty (OrderItem.writeList d true ordering)
    Node.writeClause d " limit " limit
    -- refused only here, so an offence in what stands before comes first
    require d (offset.isNone || limit.isSome || d.supportsOffsetWithoutLimit) .offsetWithoutLimit
    Node.writeClause d " offset " offset

def Insert.write (d : Dialect) : Insert → Writer Unit
  | ⟨table, columns, rows, returning⟩ => do
    push "insert into "
    table.write d
    Insert.writeColumns d columns
    pushRows d rows.isEmpty (Node.writeRows d true rows)
    pushReturning d returning.isEmpty (Node.writeList d true returning)

def Update.write (d : Dialect) : Update → Writer Unit
  | ⟨table, updates, condition, returning⟩ => do
    push "update "
    table.write d
    push " set "
    ColumnUpdate.writeList d true updates
    Node.writeClause d " where " condition
    pushReturning d returning.isEmpty (Node.writeList d true returning)

def Delete.write (d : Dialect) : Delete → Writer Unit
  | ⟨table, condition, returning⟩ => do
    push "delete from "
    table.write d
    Node.writeClause d " where " condition
    pushReturning d returning.isEmpty (Node.writeList d true returning)

end

/-- Writes a node as a statement of its own: a select has no parentheses there. -/
def Node.writeStatement (d : Dialect) : Node → Writer Unit
  | .select q => q.write d
  | n => n.write d

/-- The statement of a tree. -/
def Node.compile (d : Dialect) (n : Node) : Except QueryError Statement := do
  let (_, s) ← (n.writeStatement d).run .empty
  return s

end SqlTree
