import SqlTree.Node.Builder
import SqlTree.Plugin.Basic

/-!
# Plugins — default schema

`Plugin.withSchema` gives a schema to every table that has none.  Rows are left alone.
-/

namespace SqlTree

/-- The table in a schema, unless it names one itself. -/
def TableReference.orInSchema (schema : String) (t : TableReference) : TableReference :=
  match t.schema with
  | none => t.withSchema { name := schema }
  | some _ => t

/-- The rule that puts tables into a schema. -/
def Rule.defaultSchema (schema : String) : Rule
  | .tableReference t => .ok (.tableReference (t.orInSchema schema))
  | n => .ok n

namespace Plugin

def schemaRules (schema : String) : RuleSet :=
  RuleSet.empty.register .tableReference (Rule.defaultSchema schema)

def withSchema (schema : String) : Plugin where
  name := "with-schema"
  description := "Adds a default schema to table references"
  outbound := (schemaRules schema).transform

end Plugin

end SqlTree
