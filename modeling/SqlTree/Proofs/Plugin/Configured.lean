import SqlTree.Config
import SqlTree.Proofs.Plugin.Outbound
import SqlTree.Proofs.Tree.Labels

/-!
# Plugins — the executor of a configuration

What a configuration makes of a tree is said here without plugins, as two changes of the tree.
`Config.spelled` respells the names of the tree, and `Config.placed` puts the tables into the
configured schema.

**Configured executors** (`Executor.ofConfig_compile`).  The executor writes the tree that was
respelled first and placed second.  So the schema of a table is its own one, respelled, or the
configured one as it stands in the configuration; the other way round, the configured one would be
respelled as well.
-/

namespace SqlTree

namespace Config
variable (c : Config)

/-- The identifier as it is spelled in the database. -/
def spell (id : Identifier) : Identifier :=
  match c.naming with
  | none => id
  | some o => if id.raw then id else ⟨Naming.snakeCase o id.name, false⟩

/-- The tree with its names as they are spelled in the database. -/
def spelled (n : Node) : Node :=
  match c.naming with
  | none => n
  | some _ => n.relabel c.spell id

/-- The table in the configured schema, if it has no schema and one is configured. -/
def place (t : TableReference) : TableReference :=
  { t with schema := t.schema.or (c.schema.map fun schema => ⟨schema, false⟩) }

/-- The tree with its tables in the configured schema. -/
def placed (n : Node) : Node :=
  match c.schema with
  | none => n
  | some _ => n.relabel id c.place

/-! ### With and without a part of the configuration -/

section
variable {c}

theorem spell_of_none (h : c.naming = none) : c.spell = id := by
  funext id
  rw [spell, h]
  rfl

theorem spelled_of_none (h : c.naming = none) : c.spelled = id := by
  funext n
  rw [spelled, h]
  rfl

theorem place_of_none (h : c.schema = none) : c.place = id := by
  funext t
  rw [place, h, Option.map_none, Option.or_none]
  rfl

theorem placed_of_none (h : c.schema = none) : c.placed = id := by
  funext n
  rw [placed, h]
  rfl

variable {o : NamingOptions} {schema : String}

theorem spell_of_some (h : c.naming = some o) :
    c.spell = Identifier.mapName (Naming.snakeCase o) := by
  funext id
  obtain ⟨name, raw⟩ := id
  cases raw <;> simp [spell, h, Identifier.mapName]

theorem spelled_of_some (h : c.naming = some o) : c.spelled = Node.relabel c.spell id := by
  funext n
  rw [spelled, h]

theorem spelled_eq_mapNames (h : c.naming = some o) :
    c.spelled = Node.mapNames (Naming.snakeCase o) := by
  rw [spelled_of_some h, spell_of_some h]
  rfl

theorem place_of_some (h : c.schema = some schema) :
    c.place = TableReference.orInSchema schema := by
  funext t
  obtain ⟨schema?, name, aliasName⟩ := t
  cases schema? <;> simp [place, h, TableReference.orInSchema, TableReference.withSchema]

theorem placed_of_some (h : c.schema = some schema) : c.placed = Node.relabel id c.place := by
  funext n
  rw [placed, h]

theorem placed_eq (n : Node) : c.placed n = n.relabel id c.place := by
  cases h : c.schema with
  | none => rw [placed_of_none h, place_of_none h, Node.relabel_id_id, id]
  | some schema => rw [placed_of_some h]

/-! ### The hooks -/

theorem outbound_camelCase (h : c.naming = some o) (n : Node) :
    (Plugin.camelCase o).outbound n = .ok (c.spelled n) := by
  rw [spelled_eq_mapNames h]
  exact Plugin.outbound_camelCase o n

theorem outbound_withSchema (h : c.schema = some schema) (n : Node) :
    (Plugin.withSchema schema).outbound n = .ok (c.placed n) := by
  rw [placed_of_some h, place_of_some h]
  exact (schemaRules_relabels schema).transform n

end

/-- The naming plugin, where there is one, respells the tree that the other plugins are given. -/
theorem outboundAll_naming (ps : List Plugin) (n : Node) :
    (Plugin.outboundAll ((c.naming.map Plugin.camelCase).toList ++ ps) n).result =
      (Plugin.outboundAll ps (c.spelled n)).result := by
  cases h : c.naming with
  | none => rw [spelled_of_none h]; rfl
  | some o =>
    rw [Option.map_some, Option.toList_some, List.singleton_append, Plugin.result_outboundAll_cons,
      outbound_camelCase h]
    rfl

theorem outboundAll_schema (n : Node) :
    (Plugin.outboundAll (c.schema.map Plugin.withSchema).toList n).result = .ok (c.placed n) := by
  cases h : c.schema with
  | none => rw [placed_of_none h]; rfl
  | some schema =>
    rw [Option.map_some, Option.toList_some, Plugin.result_outboundAll_cons, outbound_withSchema h]
    rfl

/-! ### Identifiers and tables -/

theorem identifiers_spelled (n : Node) : (c.spelled n).identifiers = n.identifiers.map c.spell := by
  cases h : c.naming with
  | none => rw [spelled_of_none h, spell_of_none h, List.map_id]; rfl
  | some o => rw [spelled_of_some h, Node.identifiers_relabel_id]

theorem tables_spelled (n : Node) :
    (c.spelled n).tables = n.tables.map (TableReference.relabel c.spell id) := by
  cases h : c.naming with
  | none =>
    rw [spelled_of_none h, spell_of_none h, TableReference.relabel_id, List.map_id]
    rfl
  | some o => rw [spelled_of_some h, Node.tables_relabel]

theorem tables_placed (n : Node) : (c.placed n).tables = n.tables.map c.place := by
  cases h : c.schema with
  | none => rw [placed_of_none h, place_of_none h, List.map_id]; rfl
  | some schema => rw [placed_of_some h, Node.tables_relabel, TableReference.relabel_id]

end Config

/-- **Configured executors.**  The executor of a configuration compiles a tree to what its dialect
makes of the tree that was respelled and then placed.  Every name of the tree is respelled where it
stands.  Every table ends up with its own schema, name and alias respelled, and with the configured
schema as it stands in the configuration where it had none. -/
theorem Executor.ofConfig_compile (c : Config) (n : Node) :
    (Executor.ofConfig c).compile n = (c.placed (c.spelled n)).compile c.dialect ∧
    (c.spelled n).identifiers = n.identifiers.map c.spell ∧
    (c.placed (c.spelled n)).tables = n.tables.map fun t =>
      { schema := (t.schema.map c.spell).or (c.schema.map fun schema => ⟨schema, false⟩)
        name := c.spell t.name
        aliasName := t.aliasName.map c.spell } := by
  refine ⟨?_, c.identifiers_spelled n, ?_⟩
  · rw [compile_eq, ofConfig, c.outboundAll_naming, c.outboundAll_schema]
    rfl
  · rw [c.tables_placed, c.tables_spelled, List.map_map]
    rfl

/-- Names in snake case, and a schema in a spelling of its own. -/
def shopConfig : Config where
  dialect := .sqlite
  schema := some "shopData"
  naming := some {}

/-- The orders that are not in the archive. -/
def openOrders : Node :=
  .select
    { selections := [.wildcard none]
      sources := [.table { name := "openOrder" }]
      condition := some (.binary (.column { name := "orderId" }) .notIn (.select
        { selections := [.column { name := "orderId" }]
          sources := [.tableReference
            { schema := some { name := "coldStore" }, name := { name := "oldOrder" } }] })) }

/-- The configured schema keeps its spelling, the schema in the tree does not. -/
theorem openOrders_compile :
    ((Executor.ofConfig shopConfig).compile openOrders).toOption.map Statement.sql = some
      ("select * from \"shopData\".\"open_order\" where \"order_id\" not in " ++
        "(select \"order_id\" from \"cold_store\".\"old_order\")") ∧
    (shopConfig.placed (shopConfig.spelled openOrders)).tables =
      [{ schema := some { name := "shopData" }, name := { name := "open_order" } },
        { schema := some { name := "cold_store" }, name := { name := "old_order" } }] := by
  obtain ⟨hcompile, -, htables⟩ := Executor.ofConfig_compile shopConfig openOrders
  rw [hcompile, htables]
  constructor <;> decide +kernel

end SqlTree
