import SqlTree.Dialect

/-!
# Errors

Each way in which a statement can fail on its way from a tree to rows is one constructor of
`QueryError`.  `QueryError.message` gives its wording.
-/

namespace SqlTree

/-- The places of a tree that hold nodes of one kind only. -/
inductive Slot where
  | columnQualifier
  | columnName
  | expressionAlias
  | wildcardQualifier
  | updateColumn
  | columnDefinition
  | insertTarget
  | insertColumn
  | updateTarget
  | updateList
  | deleteTarget
  | createTableTarget
  | columnDefinitions
  | dropTableTarget
  | tableSchema
  | tableName
  | tableAlias
  | joinList
  | orderByList
deriving DecidableEq, Inhabited

def Slot.name : Slot → String
  | columnQualifier => "column qualifier"
  | columnName => "column name"
  | expressionAlias => "alias"
  | wildcardQualifier => "wildcard qualifier"
  | updateColumn => "update column"
  | columnDefinition => "column definition"
  | insertTarget => "insert target"
  | insertColumn => "insert column"
  | updateTarget => "update target"
  | updateList => "update list"
  | deleteTarget => "delete target"
  | createTableTarget => "create table target"
  | columnDefinitions => "column definitions"
  | dropTableTarget => "drop table target"
  | tableSchema => "table schema"
  | tableName => "table name"
  | tableAlias => "table alias"
  | joinList => "join list"
  | orderByList => "order by list"

/-- Why no configuration could be loaded. -/
inductive ConfigError where
  | invalid
  | unreadable (path : String)
deriving DecidableEq, Inhabited

def ConfigError.message : ConfigError → String
  | invalid => "Invalid query configuration"
  | unreadable path => "Failed to read " ++ path

inductive QueryError where
  /-- A rule put a node of the wrong kind into a slot. -/
  | unsupportedNodeKind (kind : NodeKind) (slot : Slot)
  /-- The rule registered for a kind failed. -/
  | rule (kind : NodeKind) (cause : String)
  /-- A hook of a plugin failed. -/
  | plugin (name : String) (cause : String)
  /-- A dialect has no way to write something. -/
  | unsupportedOperation (dialect : Dialect) (construct : String)
  /-- The pieces of a raw fragment do not alternate with its bindings. -/
  | invalidRawFragment (texts bindings : Nat)
  | driver (cause : String)
  | config (cause : ConfigError)
deriving DecidableEq, Inhabited

def QueryError.message : QueryError → String
  | unsupportedNodeKind kind slot =>
    "unsupported node kind `" ++ kind.name ++ "` in " ++ slot.name
  | rule kind cause => "rewrite rule for `" ++ kind.name ++ "` failed: " ++ cause
  | plugin name cause => "plugin `" ++ name ++ "` failed: " ++ cause
  | unsupportedOperation dialect construct => dialect.name ++ " does not support " ++ construct
  | invalidRawFragment texts bindings =>
    "raw fragment has " ++ toString texts ++ " text pieces for " ++ toString bindings ++
      " bindings"
  | driver cause => cause
  | config cause => "configuration error: " ++ cause.message

end SqlTree
