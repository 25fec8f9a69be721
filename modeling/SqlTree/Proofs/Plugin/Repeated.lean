import SqlTree.Proofs.Json.Renaming
import SqlTree.Proofs.Naming.Repeated
import SqlTree.Proofs.Plugin.Configured
import SqlTree.Proofs.Plugin.Layers

/-!
# Plugins — naming twice

Names that were put into the spelling of the database are in it, and keys that were put into the
spelling of the application are in it.  So the naming plugin leaves alone what it made itself, as
far as the names are ASCII: a tree on its way out, and rows on their way back, where fields that
were merged do not clash again.

**Twice** (`Plugin.camelCase_repeated`).  An executor that respells names by its configuration may
therefore be given the plugin once more.  But this one comes behind the plugin for the default
schema, and respells that schema as well (`Executor.addPlugin_respells_schema`): the executor is
then the one whose schema is configured in the spelling of the database.
-/

namespace SqlTree
open Naming (IsAscii IsStoredName)

/-! ### Trees -/

section
variable {f : String → String}

theorem Identifier.mapName_of_eq {id : Identifier} (h : id.raw = false → f id.name = id.name) :
    id.mapName f = id := by
  obtain ⟨name, raw⟩ := id
  cases raw with
  | true => rfl
  | false => exact congrArg (Identifier.mk · false) (h rfl)

theorem Identifier.raw_mapName (f : String → String) (id : Identifier) :
    (id.mapName f).raw = id.raw := by
  obtain ⟨name, raw⟩ := id
  cases raw <;> rfl

theorem Identifier.name_mapName {id : Identifier} (h : id.raw = false) :
    (id.mapName f).name = f id.name := by
  rw [mapName, h, if_neg Bool.false_ne_true]

theorem Node.mapNames_of_eq {n : Node}
    (h : ∀ i ∈ n.identifiers, i.raw = false → f i.name = i.name) : n.mapNames f = n := by
  rw [mapNames, relabel_congr _ _ fun i hi => Identifier.mapName_of_eq (h i hi)]
  exact n.relabel_id_id

end

/-- The names of the tree are ASCII, apart from raw ones. -/
def Node.HasAsciiNames (n : Node) : Prop :=
  ∀ i ∈ n.identifiers, i.raw = false → IsAscii i.name.toList

instance (n : Node) : Decidable n.HasAsciiNames :=
  inferInstanceAs (Decidable (∀ i ∈ n.identifiers, i.raw = false → IsAscii i.name.toList))

/-- The names of the tree are in the spelling of the database, apart from raw ones. -/
def Node.HasStoredNames (n : Node) : Prop :=
  ∀ i ∈ n.identifiers, i.raw = false → IsStoredName i.name

namespace Config
variable (c : Config)

/-- The configuration with another default schema, if it has one. -/
def mapSchema (f : String → String) : Config := { c with schema := c.schema.map f }

/-- Mapping names maps the schema as well, once tables are in it. -/
theorem mapNames_placed (f : String → String) (n : Node) :
    (c.placed n).mapNames f = (c.mapSchema f).placed (n.mapNames f) := by
  have htable (r : TableReference) :
      (r.relabel id c.place).relabel (Identifier.mapName f) id =
        r.relabel (Identifier.mapName f) (c.mapSchema f).place := by
    simp [TableReference.relabel, place, mapSchema, Option.map_or, Function.comp_def,
      Identifier.mapName]
  rw [placed_eq, placed_eq, Node.mapNames, Node.mapNames, Node.relabel_names_tables]
  apply Node.relabel_relabel
  · exact fun _ => rfl
  · exact htable

end Config

/-! ### Rows -/

/-- The keys of the row are ASCII, and so are those of the JSON in it. -/
structure Row.HasAsciiKeys (row : Row) : Prop where
  keys : ∀ e ∈ row.fields, IsAscii e.1.toList
  nested : ∀ e ∈ row.fields, ∀ j, e.2 = .json j →
    j.EveryObject fun ms => ∀ m ∈ ms, IsAscii m.1.toList

namespace Plugin
variable {o : NamingOptions}

theorem renameNested_renameNested (hupper : o.upperCase = false) {v : Value}
    (hv : ∀ j, v = .json j → j.EveryObject fun ms => ∀ m ∈ ms, IsAscii m.1.toList) :
    renameNested o (renameNested o v) = renameNested o v := by
  cases v with
  | json j =>
    refine congrArg Value.json (Json.mapKeys_mapKeys fun p ms hms m hm => ?_)
    exact Naming.camelCase_camelCase hupper (hv j rfl p ms hms m hm)
  | _ => rfl

theorem renameRow_renameRow (hupper : o.upperCase = false) {row : Row} (h : row.HasAsciiKeys) :
    renameRow o (renameRow o row) = renameRow o row := by
  refine Row.mapFields_mapFields fun e he => Prod.ext ?_ ?_
  · exact Naming.camelCase_camelCase hupper (h.keys e he)
  · show (if _ then _ else _) = (if _ then _ else _)
    -- nested keys are maintained or renamed, both times alike
    split
    next => rfl
    next => exact renameNested_renameNested hupper (h.nested e he)

theorem renameRows_renameRows (hupper : o.upperCase = false) {rows : List Row}
    (h : ∀ row ∈ rows, row.HasAsciiKeys) :
    (rows.map (renameRow o)).map (renameRow o) = rows.map (renameRow o) := by
  rw [List.map_map]
  exact List.map_congr_left fun row hrow => renameRow_renameRow hupper (h row hrow)

theorem inbound_camelCase (o : NamingOptions) (rows : List Row) :
    (camelCase o).inbound rows = .ok (rows.map (renameRow o)) := rfl

end Plugin

/-! ### Executors -/

namespace Executor
open Plugin
variable {o : NamingOptions} {c : Config}

theorem result_execute (e : Executor) (driver : Driver) (n : Node) :
    (e.execute driver n).result = e.compile n >>= fun s =>
      (driver s).mapError .driver >>= fun rows => (inboundAll e.plugins rows).result := by
  rw [execute, Traced.result_bind]
  refine congrArg (e.compile n >>= ·) (funext fun s => ?_)
  rw [Traced.result_bind]
  exact Traced.result_bind ..

theorem outboundAll_ofConfig (c : Config) (n : Node) :
    (outboundAll (ofConfig c).plugins n).result = .ok (c.placed (c.spelled n)) := by
  rw [ofConfig, c.outboundAll_naming, c.outboundAll_schema]

theorem inboundAll_ofConfig (hc : c.naming = some o) (rows : List Row) :
    (inboundAll (ofConfig c).plugins rows).result = .ok (rows.map (renameRow o)) := by
  have hschema : (inboundAll (c.schema.map withSchema).toList rows).result = .ok rows := by
    cases c.schema with
    | none => rfl
    | some schema => exact result_inboundAll_singleton _ rows
  rw [ofConfig, hc, result_inboundAll_append, hschema]
  exact result_inboundAll_singleton (camelCase o) rows

/-- The naming plugin behind the plugins of a configuration maps the configured schema as well. -/
theorem outboundAll_addPlugin (c : Config) (o : NamingOptions) (n : Node) :
    (outboundAll ((ofConfig c).addPlugin (camelCase o)).plugins n).result =
      .ok ((c.mapSchema (Naming.snakeCase o)).placed
        ((c.spelled n).mapNames (Naming.snakeCase o))) := by
  rw [addPlugin, result_outboundAll_append, outboundAll_ofConfig, ← Config.mapNames_placed]
  exact (result_outboundAll_singleton ..).trans (outbound_camelCase o _)

theorem compile_addPlugin (hc : c.naming = some o) {n : Node}
    (h : (n.mapNames (Naming.snakeCase o)).mapNames (Naming.snakeCase o) =
      n.mapNames (Naming.snakeCase o)) :
    ((ofConfig c).addPlugin (camelCase o)).compile n =
      (ofConfig (c.mapSchema (Naming.snakeCase o))).compile n := by
  -- the two configurations differ in nothing but the schema
  have hc' : (c.mapSchema (Naming.snakeCase o)).naming = some o := hc
  rw [compile_eq, compile_eq, outboundAll_addPlugin, outboundAll_ofConfig,
    Config.spelled_eq_mapNames hc, Config.spelled_eq_mapNames hc', h]
  rfl

theorem inboundAll_addPlugin (hc : c.naming = some o) {rows : List Row}
    (h : (rows.map (renameRow o)).map (renameRow o) = rows.map (renameRow o)) :
    (inboundAll ((ofConfig c).addPlugin (camelCase o)).plugins rows).result =
      (inboundAll (ofConfig (c.mapSchema (Naming.snakeCase o))).plugins rows).result := by
  have hc' : (c.mapSchema (Naming.snakeCase o)).naming = some o := hc
  rw [addPlugin, result_inboundAll_append, result_inboundAll_singleton, inbound_camelCase,
    inboundAll_ofConfig hc']
  exact (inboundAll_ofConfig hc _).trans (congrArg Except.ok h)

/-- The executors make the same of trees whose names are ASCII, with drivers whose keys are. -/
structure SameOnAscii (e e' : Executor) : Prop where
  compile_eq : ∀ n : Node, n.HasAsciiNames → e.compile n = e'.compile n
  execute_eq : ∀ (n : Node) (driver : Driver), n.HasAsciiNames →
    (∀ s rows, driver s = .ok rows → ∀ row ∈ rows, row.HasAsciiKeys) →
    (e.execute driver n).result = (e'.execute driver n).result

end Executor

namespace Plugin
variable {o : NamingOptions}

theorem hasStoredNames_mapNames (hupper : o.upperCase = false) {n : Node} (h : n.HasAsciiNames) :
    (n.mapNames (Naming.snakeCase o)).HasStoredNames := by
  intro i' hi' hraw
  rw [Node.mapNames, Node.identifiers_relabel_id] at hi'
  obtain ⟨i, hi, rfl⟩ := List.mem_map.1 hi'
  rw [Identifier.raw_mapName] at hraw
  rw [Identifier.name_mapName hraw]
  exact Naming.isStoredName_snakeCase hupper (h i hi hraw)

section
variable (hupper : o.upperCase = false) (hdigits : o.underscoreBeforeDigits = false)
include hupper hdigits

theorem mapNames_of_hasStoredNames {n : Node} (h : n.HasStoredNames) :
    n.mapNames (Naming.snakeCase o) = n :=
  Node.mapNames_of_eq fun i hi hraw =>
    Naming.snakeCase_of_isStoredName hupper hdigits (h i hi hraw)

theorem mapNames_mapNames {n : Node} (h : n.HasAsciiNames) :
    (n.mapNames (Naming.snakeCase o)).mapNames (Naming.snakeCase o) =
      n.mapNames (Naming.snakeCase o) :=
  mapNames_of_hasStoredNames hupper hdigits (hasStoredNames_mapNames hupper h)

theorem mapSchema_of_isStoredName {c : Config} (h : ∀ schema ∈ c.schema, IsStoredName schema) :
    c.mapSchema (Naming.snakeCase o) = c := by
  have hschema : c.schema.map (Naming.snakeCase o) = c.schema.map id :=
    Option.map_congr fun schema hs => Naming.snakeCase_of_isStoredName hupper hdigits (h schema hs)
  rw [Config.mapSchema, hschema, Option.map_id_apply]

theorem sameOnAscii_addPlugin {c : Config} (hc : c.naming = some o) :
    ((Executor.ofConfig c).addPlugin (camelCase o)).SameOnAscii
      (Executor.ofConfig (c.mapSchema (Naming.snakeCase o))) where
  compile_eq n hn := Executor.compile_addPlugin hc (mapNames_mapNames hupper hdigits hn)
  execute_eq n driver hn hdriver := by
    rw [Executor.result_execute, Executor.result_execute,
      Executor.compile_addPlugin hc (mapNames_mapNames hupper hdigits hn)]
    refine congrArg (_ >>= ·) (funext fun s => ?_)
    cases hrows : driver s with
    | error cause => rfl
    | ok rows =>
      exact Executor.inboundAll_addPlugin hc (renameRows_renameRows hupper (hdriver s rows hrows))

end

/-- **Twice.**  Where the database writes its names neither in capitals nor with numbers set apart,
the naming plugin changes nothing of what it made of a tree or of rows, as long as names and keys
are ASCII, and nothing of a tree whose names are in the spelling of the database.  Behind the
plugins of a configuration that has it already, it only brings the default schema into that
spelling, so it does nothing if the schema is in it. -/
theorem camelCase_repeated (o : NamingOptions) (hupper : o.upperCase = false)
    (hdigits : o.underscoreBeforeDigits = false) :
    (∀ n : Node, n.HasAsciiNames →
      ∃ m, (camelCase o).outbound n = .ok m ∧ (camelCase o).outbound m = .ok m) ∧
    (∀ rows : List Row, (∀ row ∈ rows, row.HasAsciiKeys) →
      ∃ rows', (camelCase o).inbound rows = .ok rows' ∧ (camelCase o).inbound rows' = .ok rows') ∧
    (∀ n : Node, n.HasStoredNames → (camelCase o).outbound n = .ok n) ∧
    ∀ c : Config, c.naming = some o →
      ((Executor.ofConfig c).addPlugin (camelCase o)).SameOnAscii
        (Executor.ofConfig (c.mapSchema (Naming.snakeCase o))) ∧
      ((∀ schema ∈ c.schema, IsStoredName schema) →
        c.mapSchema (Naming.snakeCase o) = c) := by
  refine ⟨fun n hn => ?_, fun rows hrows => ?_, fun n hn => ?_, fun c hc => ?_⟩
  · refine ⟨_, outbound_camelCase o n, ?_⟩
    rw [outbound_camelCase, mapNames_mapNames hupper hdigits hn]
  · refine ⟨_, inbound_camelCase o rows, ?_⟩
    rw [inbound_camelCase, renameRows_renameRows hupper hrows]
  · rw [outbound_camelCase, mapNames_of_hasStoredNames hupper hdigits hn]
  · exact ⟨sameOnAscii_addPlugin hupper hdigits hc, mapSchema_of_isStoredName hupper hdigits⟩

/-- Keys that clash, in a row and in JSON inside it. -/
def clashingRow : Row :=
  ⟨[("_pet__id_", .int 1), ("_petId", .json (.object [("vetId", .null), ("vet__id", .int 2)]))]⟩

theorem hasAsciiKeys_clashingRow : clashingRow.HasAsciiKeys where
  keys := by decide
  nested e he j hj := by
    rcases List.mem_pair.1 he with rfl | rfl
    · cases hj
    · cases hj
      refine Json.everyObject_object.2 ⟨by decide, fun m hm => ?_⟩
      apply Json.everyObject_of_isScalar
      rcases List.mem_pair.1 hm with rfl | rfl <;> trivial

/-- Rows whose keys clash, and a schema that is in the spelling of the database. -/
theorem camelCase_repeated_clashing :
    (∃ rows', (camelCase {}).inbound [clashingRow] = .ok rows' ∧
      (camelCase {}).inbound rows' = .ok rows') ∧
    ((Executor.ofConfig { shopConfig with schema := some "shop_data" }).addPlugin
        (camelCase {})).SameOnAscii
      (Executor.ofConfig { shopConfig with schema := some "shop_data" }) := by
  obtain ⟨-, hrows, -, hconfig⟩ := camelCase_repeated {} rfl rfl
  obtain ⟨hsame, hschema⟩ := hconfig { shopConfig with schema := some "shop_data" } rfl
  have hstored : IsStoredName "shop_data" := by decide
  refine ⟨hrows _ (List.forall_mem_singleton.2 hasAsciiKeys_clashingRow), ?_⟩
  rwa [hschema fun schema hs => Option.some.inj hs ▸ hstored] at hsame

end Plugin

def openOrderNames : Node :=
  .select
    { selections := [.column { name := "orderId" }]
      sources := [.table { name := "openOrder" }] }

/-- A schema in a spelling of its own is respelled by the plugin that is added to the configured
ones, so the executor is not the same. -/
theorem Executor.addPlugin_respells_schema :
    ((Executor.ofConfig shopConfig).compile openOrderNames).toOption.map Statement.sql =
      some "select \"order_id\" from \"shopData\".\"open_order\"" ∧
    (((Executor.ofConfig shopConfig).addPlugin (Plugin.camelCase {})).compile
        openOrderNames).toOption.map Statement.sql =
      some "select \"order_id\" from \"shop_data\".\"open_order\"" ∧
    ¬ ((Executor.ofConfig shopConfig).addPlugin (Plugin.camelCase {})).SameOnAscii
      (Executor.ofConfig shopConfig) := by
  have honce : ((Executor.ofConfig shopConfig).compile openOrderNames).toOption.map Statement.sql =
      some "select \"order_id\" from \"shopData\".\"open_order\"" := by
    rw [compile_eq, outboundAll_ofConfig]
    decide +kernel
  have htwice : (((Executor.ofConfig shopConfig).addPlugin (Plugin.camelCase {})).compile
        openOrderNames).toOption.map Statement.sql =
      some "select \"order_id\" from \"shop_data\".\"open_order\"" := by
    rw [compile_eq, outboundAll_addPlugin]
    decide +kernel
  refine ⟨honce, htwice, fun h => ?_⟩
  rw [h.compile_eq openOrderNames (by decide), honce] at htwice
  exact absurd htwice (by decide)

end SqlTree
