import SqlTree.Proofs.Plugin.Outbound
import SqlTree.Proofs.Statement.Relabelled

/-!
# Plugins — the default schema

The plugin for a default schema changes the tables of a tree that name no schema, wherever they
stand, and nothing else (`Node.inSchema`).  Tables that are in a schema stay there, so of several
such plugins only the first one does something (`Plugin.result_outboundAll_schemas`).

**Default schema** (`Plugin.withSchema_absorbs`).  The plugin succeeds on every tree.  What it gives
has no table without a schema, so no further plugin of its kind changes it, and a statement with the
bindings of the tree, or the error of the tree.
-/

namespace SqlTree

namespace TableReference
variable {schema other : String}

theorem orInSchema_eq (schema : String) (r : TableReference) :
    r.orInSchema schema = { r with schema := r.schema.or (some ⟨schema, false⟩) } := by
  obtain ⟨schema?, name, aliasName⟩ := r
  cases schema? <;> rfl

theorem isSome_schema_orInSchema (r : TableReference) : (r.orInSchema schema).schema.isSome := by
  rw [orInSchema_eq, Option.isSome_or, Option.isSome_some, Bool.or_true]

/-- The first schema stays. -/
theorem orInSchema_orInSchema :
    orInSchema other ∘ orInSchema schema = orInSchema schema := by
  funext r
  rw [Function.comp_apply, orInSchema_eq other, Option.or_of_isSome r.isSome_schema_orInSchema]

def withoutSchema (r : TableReference) : TableReference := { r with schema := none }

theorem withoutSchema_orInSchema : withoutSchema ∘ orInSchema schema = withoutSchema := by
  funext r
  rw [Function.comp_apply, orInSchema_eq]
  rfl

end TableReference

namespace Node

/-- The tree with those tables in a schema that name none. -/
def inSchema (schema : String) (n : Node) : Node := n.relabel id (TableReference.orInSchema schema)

/-- The tree with no table in a schema. -/
def withoutSchemas (n : Node) : Node := n.relabel id TableReference.withoutSchema

variable (schema other : String) (n : Node)

theorem inSchema_inSchema : (n.inSchema schema).inSchema other = n.inSchema schema := by
  rw [inSchema, inSchema, relabel_id_relabel, TableReference.orInSchema_orInSchema]

theorem withoutSchemas_inSchema : (n.inSchema schema).withoutSchemas = n.withoutSchemas := by
  rw [inSchema, withoutSchemas, relabel_id_relabel, TableReference.withoutSchema_orInSchema]
  rfl

theorem tables_inSchema :
    (n.inSchema schema).tables = n.tables.map (TableReference.orInSchema schema) := by
  rw [inSchema, tables_relabel, TableReference.relabel_id]

theorem isSome_schema_inSchema : (n.inSchema schema).tables.all fun r => r.schema.isSome := by
  rw [tables_inSchema, List.all_map, List.all_eq_true]
  exact fun r _ => r.isSome_schema_orInSchema

end Node

namespace Plugin

theorem outbound_withSchema (schema : String) (n : Node) :
    (withSchema schema).outbound n = .ok (n.inSchema schema) :=
  (schemaRules_relabels schema).transform n

/-- Further default schemas change nothing. -/
theorem result_outboundAll_inSchema (schema : String) (schemas : List String) (n : Node) :
    (outboundAll (schemas.map withSchema) (n.inSchema schema)).result =
      .ok (n.inSchema schema) := by
  induction schemas with
  | nil => rfl
  | cons other schemas ih =>
    rw [List.map_cons, result_outboundAll_cons, outbound_withSchema, Node.inSchema_inSchema]
    exact ih

theorem result_outboundAll_schemas (schema : String) (schemas : List String) (n : Node) :
    (outboundAll ((schema :: schemas).map withSchema) n).result = .ok (n.inSchema schema) := by
  rw [List.map_cons, result_outboundAll_cons, outbound_withSchema]
  exact result_outboundAll_inSchema schema schemas n

/-- **Default schema.**  On every tree the plugin succeeds and puts the tables that name no schema
into its own one, not raw, and changes nothing else.  No table is then without a schema, and the
same plugin or one for another schema changes nothing more.  In every dialect the tree compiles as
before, with the same bindings or the same error. -/
theorem withSchema_absorbs (schema : String) (n : Node) :
    (withSchema schema).outbound n = .ok (n.inSchema schema) ∧
    (n.inSchema schema).tables =
      n.tables.map (fun r => { r with schema := r.schema.or (some ⟨schema, false⟩) }) ∧
    (n.inSchema schema).withoutSchemas = n.withoutSchemas ∧
    ((n.inSchema schema).tables.all fun r => r.schema.isSome) ∧
    (∀ other, (withSchema other).outbound (n.inSchema schema) = .ok (n.inSchema schema)) ∧
    (∀ schemas, (outboundAll ((schema :: schemas).map withSchema) n).result =
      .ok (n.inSchema schema)) ∧
    ∀ d : Dialect, ((n.inSchema schema).compile d).map Statement.bindings =
      (n.compile d).map Statement.bindings := by
  refine ⟨outbound_withSchema schema n, ?_, n.withoutSchemas_inSchema schema,
    n.isSome_schema_inSchema schema, fun other => ?_,
    fun schemas => result_outboundAll_schemas schema schemas n,
    fun d => Node.compile_relabel _ _ d n⟩
  · rw [Node.tables_inSchema]
    exact List.map_congr_left fun r _ => r.orInSchema_eq schema
  · rw [outbound_withSchema, Node.inSchema_inSchema]

end Plugin

end SqlTree
