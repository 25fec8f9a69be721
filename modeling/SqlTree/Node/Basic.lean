import SqlTree.Node.Kind
import SqlTree.Value

/-!
# Nodes — the operation tree

An operation tree describes one SQL statement apart from any database.  `Node` is closed: every
function of the library is defined by its constructors.  Clauses that can hold only one kind of node
have a type of their own (`TableReference`, `Join`, `OrderItem`, `ColumnUpdate`,
`ColumnDefinition`), and each of these is a node as well.

The tree types are mutually inductive and nest lists and options of themselves, so a function over a
tree comes with one companion for each such shape.
-/

namespace SqlTree

/-- A name.  A raw name is SQL text and is written as it stands; any other is quoted. -/
structure Identifier where
  name : String
  raw : Bool := false
deriving DecidableEq, Inhabited

/-- A column, with the table it belongs to if that is given. -/
structure ColumnReference where
  table : Option Identifier := none
  column : Identifier
deriving DecidableEq, Inhabited

/-- A table, with its schema and the alias it goes by. -/
structure TableReference where
  schema : Option Identifier := none
  name : Identifier
  aliasName : Option Identifier := none
deriving DecidableEq, Inhabited

inductive JoinType where
  | inner
  | left
  | right
  | full
  | cross
deriving DecidableEq, Inhabited

inductive OrderDirection where
  | ascending
  | descending
deriving DecidableEq, Inhabited

inductive BinaryOperator where
  | eq
  | notEq
  | lt
  | ltEq
  | gt
  | gtEq
  | like
  | notLike
  | isIn
  | notIn
  | and
  | or
  | add
  | sub
  | mul
  | div
  | mod
deriving DecidableEq, Inhabited

inductive UnaryOperator where
  | not
  | negate
  | exists
  | notExists
  | isNull
  | isNotNull
deriving DecidableEq, Inhabited

/-- The type of a column in a definition. -/
inductive DataType where
  | integer
  | bigInt
  | varchar (length : Option Nat)
  | text
  | boolean
  | double
  | date
  | timestamp
  | json
deriving DecidableEq, Inhabited

/-- A column of a table to be created. -/
structure ColumnDefinition where
  column : Identifier
  dataType : DataType
  primaryKey : Bool := false
  autoincrement : Bool := false
  notNull : Bool := false
deriving DecidableEq, Inhabited

structure CreateTable where
  table : TableReference
  ifNotExists : Bool := false
  columns : List ColumnDefinition := []
deriving DecidableEq, Inhabited

structure DropTable where
  table : TableReference
  ifExists : Bool := false
deriving DecidableEq, Inhabited

mutual

inductive Node where
  | identifier (id : Identifier)
  | columnReference (ref : ColumnReference)
  | tableReference (ref : TableReference)
  | aliased (expr : Node) (name : Identifier)
  | wildcard (table : Option Identifier)
  | join (join : Join)
  | orderItem (item : OrderItem)
  | binary (left : Node) (op : BinaryOperator) (right : Node)
  | unary (op : UnaryOperator) (operand : Node)
  | call (function : String) (args : List Node)
  | valueList (items : List Node)
  | columnUpdate (update : ColumnUpdate)
  | columnDefinition (definition : ColumnDefinition)
  | select (query : Select)
  | insert (query : Insert)
  | update (query : Update)
  | delete (query : Delete)
  | createTable (query : CreateTable)
  | dropTable (query : DropTable)
  /-- SQL text, in pieces between which the bindings are spliced in. -/
  | rawFragment (texts : List String) (bindings : List Node)
  /-- A placeholder and the value bound to it. -/
  | parameter (value : Value)

structure Join where
  joinType : JoinType
  target : Node
  condition : Option Node := none

structure OrderItem where
  expr : Node
  direction : OrderDirection := .ascending

/-- The assignment of a value to a column. -/
structure ColumnUpdate where
  column : Identifier
  value : Node

structure Select where
  distinct : Bool := false
  selections : List Node := []
  sources : List Node := []
  joins : List Join := []
  condition : Option Node := none
  grouping : List Node := []
  having : Option Node := none
  ordering : List OrderItem := []
  limit : Option Node := none
  offset : Option Node := none

structure Insert where
  table : TableReference
  columns : List Identifier := []
  rows : List (List Node) := []
  returning : List Node := []

structure Update where
  table : TableReference
  updates : List ColumnUpdate := []
  condition : Option Node := none
  returning : List Node := []

structure Delete where
  table : TableReference
  condition : Option Node := none
  returning : List Node := []

end

instance : Inhabited Node := ⟨.wildcard none⟩

namespace Node

def kind : Node → NodeKind
  | identifier _ => .identifier
  | columnReference _ => .columnReference
  | tableReference _ => .tableReference
  | aliased _ _ => .aliased
  | wildcard _ => .wildcard
  | join _ => .join
  | orderItem _ => .orderItem
  | binary _ _ _ => .binary
  | unary _ _ => .unary
  | call _ _ => .call
  | valueList _ => .valueList
  | columnUpdate _ => .columnUpdate
  | columnDefinition _ => .columnDefinition
  | select _ => .select
  | insert _ => .insert
  | update _ => .update
  | delete _ => .delete
  | createTable _ => .createTable
  | dropTable _ => .dropTable
  | rawFragment _ _ => .rawFragment
  | parameter _ => .parameter

def identifier? : Node → Option Identifier
  | identifier id => some id
  | _ => none

def tableReference? : Node → Option TableReference
  | tableReference ref => some ref
  | _ => none

def join? : Node → Option Join
  | join j => some j
  | _ => none

def orderItem? : Node → Option OrderItem
  | orderItem item => some item
  | _ => none

def columnUpdate? : Node → Option ColumnUpdate
  | columnUpdate u => some u
  | _ => none

def columnDefinition? : Node → Option ColumnDefinition
  | columnDefinition d => some d
  | _ => none

end Node

namespace BinaryOperator

/-- The operators in the order of their declaration. -/
def all : List BinaryOperator :=
  [eq, notEq, lt, ltEq, gt, gtEq, like, notLike, isIn, notIn, and, or, add, sub, mul, div, mod]

/-- How strongly an operator binds; a higher strength binds tighter. -/
def precedence : BinaryOperator → Nat
  | or => 1
  | and => 2
  | eq | notEq | lt | ltEq | gt | gtEq | like | notLike | isIn | notIn => 3
  | add | sub => 4
  | mul | div | mod => 5

/-- Comparisons do not chain. -/
def isComparison (op : BinaryOperator) : Bool := op.precedence == 3

/-- Whether a right operand of the same operator may do without parentheses. -/
def isAssociative : BinaryOperator → Bool
  | and | or | add | mul => true
  | _ => false

def sql : BinaryOperator → String
  | eq => "="
  | notEq => "<>"
  | lt => "<"
  | ltEq => "<="
  | gt => ">"
  | gtEq => ">="
  | like => "like"
  | notLike => "not like"
  | isIn => "in"
  | notIn => "not in"
  | and => "and"
  | or => "or"
  | add => "+"
  | sub => "-"
  | mul => "*"
  | div => "/"
  | mod => "%"

/-- The operators that bind tighter than an operator. -/
def tighter (op : BinaryOperator) : List BinaryOperator :=
  all.filter fun o => op.precedence < o.precedence

end BinaryOperator

def JoinType.sql : JoinType → String
  | inner => "inner join"
  | left => "left join"
  | right => "right join"
  | full => "full join"
  | cross => "cross join"

def OrderDirection.sql : OrderDirection → String
  | ascending => "asc"
  | descending => "desc"

end SqlTree
