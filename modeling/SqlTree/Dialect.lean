import SqlTree.Node.Basic

/-!
# Dialects

A dialect is one of the databases a tree can be written for.  Everything that differs between them
is a function here: the quote around names, the spelling of placeholders and of column types, and
the two clauses that not every database has.
-/

namespace SqlTree

inductive Dialect where
  | postgres
  | mysql
  | sqlite
deriving DecidableEq, Inhabited

namespace Dialect

def all : List Dialect := [postgres, mysql, sqlite]

def name : Dialect → String
  | postgres => "postgres"
  | mysql => "mysql"
  | sqlite => "sqlite"

def ofName? (s : String) : Option Dialect := all.find? fun d => d.name = s

/-- The character that opens and closes a quoted name. -/
def quote : Dialect → Char
  | mysql => '\x60'
  | _ => '\x22'

/-- The placeholder of the binding at an index from 1. -/
def placeholder : Dialect → Nat → String
  | postgres, k => "$" ++ toString k
  | _, _ => "?"

def supportsReturning : Dialect → Bool
  | mysql => false
  | _ => true

def supportsOffsetWithoutLimit : Dialect → Bool
  | postgres => true
  | _ => false

/-- The type and constraints of an integer key that counts up by itself. -/
def autoincrementKey : Dialect → String
  | postgres => "serial primary key"
  | mysql => "integer auto_increment primary key"
  | sqlite => "integer primary key autoincrement"

/-- The end of an insert without rows. -/
def defaultValues : Dialect → String
  | mysql => "() values ()"
  | _ => "default values"

/-- The spelling of a column type. -/
def typeName : Dialect → DataType → String
  | _, .integer => "integer"
  | _, .bigInt => "bigint"
  | _, .varchar (some n) => "varchar(" ++ toString n ++ ")"
  | mysql, .varchar none => "varchar(255)"
  | _, .varchar none => "varchar"
  | _, .text => "text"
  | mysql, .boolean => "tinyint(1)"
  | _, .boolean => "boolean"
  | postgres, .double => "double precision"
  | mysql, .double => "double"
  | sqlite, .double => "real"
  | _, .date => "date"
  | mysql, .timestamp => "datetime"
  | _, .timestamp => "timestamp"
  | sqlite, .json => "text"
  | _, .json => "json"

/-- A name between quotes, every quote inside it written twice. -/
def quoted (d : Dialect) (name : String) : String :=
  let escaped := name.toList.flatMap fun c => if c = d.quote then [c, c] else [c]
  String.ofList (d.quote :: escaped ++ [d.quote])

end Dialect

end SqlTree
