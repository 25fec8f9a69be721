import SqlTree.Json.Keys
import SqlTree.Naming
import SqlTree.Plugin.Basic

/-!
# Plugins — naming

`Plugin.camelCase` lets an application use camel case over a database in snake case.  Outbound,
every name of a tree that is not raw is put into snake case; inbound, the keys of every row are put
back into camel case, and the keys of JSON objects inside the rows with them unless the options say
otherwise.
-/

namespace SqlTree

/-- The identifier with its name mapped, unless it is raw. -/
def Identifier.mapName (f : String → String) (id : Identifier) : Identifier :=
  if id.raw then id else { id with name := f id.name }

/-- The rule that maps names. -/
def Rule.mapName (f : String → String) : Rule
  | .identifier id => .ok (.identifier (id.mapName f))
  | n => .ok n

namespace Plugin

def namingRules (o : NamingOptions) : RuleSet :=
  RuleSet.empty.register .identifier (Rule.mapName (Naming.snakeCase o))

/-- A value of a row, with the keys inside JSON renamed. -/
def renameNested (o : NamingOptions) : Value → Value
  | .json j => .json (j.mapKeys (Naming.camelCase o))
  | v => v

def renameRow (o : NamingOptions) (row : Row) : Row :=
  row.mapFields fun k v =>
    (Naming.camelCase o k, if o.maintainNestedObjectKeys then v else renameNested o v)

def camelCase (o : NamingOptions) : Plugin where
  name := "camel-case"
  description := "Maps camelCase identifiers to snake_case and result keys back"
  outbound := (namingRules o).transform
  inbound rows := .ok (rows.map (renameRow o))

end Plugin

end SqlTree
