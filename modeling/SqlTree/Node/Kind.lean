/-!
# Nodes — kinds

`NodeKind` has one constructor for each kind of node of an operation tree.  Rules are
registered under kinds, and the kinds are ordered as they are declared.
-/

namespace SqlTree

inductive NodeKind where
  | identifier
  | columnReference
  | tableReference
  | aliased
  | wildcard
  | join
  | orderItem
  | binary
  | unary
  | call
  | valueList
  | columnUpdate
  | columnDefinition
  | select
  | insert
  | update
  | delete
  | createTable
  | dropTable
  | rawFragment
  | parameter
deriving DecidableEq, Inhabited

namespace NodeKind

/-- The kinds in the order of their declaration. -/
def all : List NodeKind :=
  [identifier, columnReference, tableReference, aliased, wildcard, join, orderItem, binary, unary,
    call, valueList, columnUpdate, columnDefinition, select, insert, update, delete, createTable,
    dropTable, rawFragment, parameter]

/-- The name of a kind in messages. -/
def name : NodeKind → String
  | identifier => "Identifier"
  | columnReference => "ColumnReference"
  | tableReference => "TableReference"
  | aliased => "AliasedExpression"
  | wildcard => "Wildcard"
  | join => "Join"
  | orderItem => "OrderItem"
  | binary => "BinaryOperation"
  | unary => "UnaryOperation"
  | call => "FunctionCall"
  | valueList => "ValueList"
  | columnUpdate => "ColumnUpdate"
  | columnDefinition => "ColumnDefinition"
  | select => "SelectQuery"
  | insert => "InsertQuery"
  | update => "UpdateQuery"
  | delete => "DeleteQuery"
  | createTable => "CreateTable"
  | dropTable => "DropTable"
  | rawFragment => "RawFragment"
  | parameter => "ValueParameter"

/-- The kind of a name. -/
def ofName? (s : String) : Option NodeKind := all.find? fun k => k.name = s

/-- The place of a kind in the order of declaration. -/
def index (k : NodeKind) : Nat := k.ctorIdx

theorem mem_all (k : NodeKind) : k ∈ all := by cases k <;> decide

/-- The kinds declared before a kind. -/
def before (k : NodeKind) : List NodeKind := all.filter fun j => j.index < k.index

end NodeKind

end SqlTree
