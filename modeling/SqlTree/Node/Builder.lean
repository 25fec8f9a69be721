import SqlTree.Node.Basic

/-!
# Nodes — building statements

The functions that build a statement step by step.  Each takes the statement so far and gives the
statement with one more part.  Conditions accumulate: a second one is joined to the first by `and`.
-/

namespace SqlTree

namespace Node

/-- A column without a table. -/
def column (id : Identifier) : Node := .columnReference { column := id }

/-- A table by its name alone. -/
def table (id : Identifier) : Node := .tableReference { name := id }

/-- The expression under an alias. -/
def as (n : Node) (name : Identifier) : Node := .aliased n name

def eq (l r : Node) : Node := .binary l .eq r

def and (l r : Node) : Node := .binary l .and r

def or (l r : Node) : Node := .binary l .or r

/-- A condition, joined to an earlier one if there is one. -/
def conjoin (earlier : Option Node) (p : Node) : Node :=
  match earlier with
  | some q => q.and p
  | none => p

end Node

namespace TableReference

def withSchema (t : TableReference) (id : Identifier) : TableReference :=
  { t with schema := some id }

def withAlias (t : TableReference) (id : Identifier) : TableReference :=
  { t with aliasName := some id }

end TableReference

namespace ColumnDefinition

def asPrimaryKey (d : ColumnDefinition) : ColumnDefinition := { d with primaryKey := true }

def asAutoincrement (d : ColumnDefinition) : ColumnDefinition := { d with autoincrement := true }

def asNotNull (d : ColumnDefinition) : ColumnDefinition := { d with notNull := true }

end ColumnDefinition

namespace Select

def asDistinct (q : Select) : Select := { q with distinct := true }

def select (q : Select) (n : Node) : Select := { q with selections := q.selections ++ [n] }

def addSource (q : Select) (n : Node) : Select := { q with sources := q.sources ++ [n] }

def addJoin (q : Select) (j : Join) : Select := { q with joins := q.joins ++ [j] }

def filter (q : Select) (p : Node) : Select :=
  { q with condition := some (Node.conjoin q.condition p) }

def groupBy (q : Select) (n : Node) : Select := { q with grouping := q.grouping ++ [n] }

/-- Adds a condition on groups. -/
def filterGroups (q : Select) (p : Node) : Select :=
  { q with having := some (Node.conjoin q.having p) }

def orderBy (q : Select) (item : OrderItem) : Select := { q with ordering := q.ordering ++ [item] }

def limitTo (q : Select) (n : Node) : Select := { q with limit := some n }

def skip (q : Select) (n : Node) : Select := { q with offset := some n }

end Select

namespace Insert

/-- The columns the rows give values for, in place of any given before. -/
def withColumns (q : Insert) (ids : List Identifier) : Insert := { q with columns := ids }

def addRow (q : Insert) (row : List Node) : Insert := { q with rows := q.rows ++ [row] }

def addReturning (q : Insert) (n : Node) : Insert := { q with returning := q.returning ++ [n] }

end Insert

namespace Update

def set (q : Update) (column : Identifier) (value : Node) : Update :=
  { q with updates := q.updates ++ [⟨column, value⟩] }

def filter (q : Update) (p : Node) : Update :=
  { q with condition := some (Node.conjoin q.condition p) }

def addReturning (q : Update) (n : Node) : Update := { q with returning := q.returning ++ [n] }

end Update

namespace Delete

def filter (q : Delete) (p : Node) : Delete :=
  { q with condition := some (Node.conjoin q.condition p) }

def addReturning (q : Delete) (n : Node) : Delete := { q with returning := q.returning ++ [n] }

end Delete

namespace CreateTable

def onlyIfAbsent (q : CreateTable) : CreateTable := { q with ifNotExists := true }

def addColumn (q : CreateTable) (d : ColumnDefinition) : CreateTable :=
  { q with columns := q.columns ++ [d] }

end CreateTable

/-- Makes the removal of a table that is absent no failure. -/
def DropTable.onlyIfPresent (q : DropTable) : DropTable := { q with ifExists := true }

end SqlTree
