import SqlTree.Plugin.CamelCase
import SqlTree.Proofs.Naming.RoundTrip
import SqlTree.Proofs.Row.Merging

/-!
# Plugins — what they make of rows

**Round trip** (`Plugin.camelCase_roundTrip`).  An application name that was put into the spelling
of the database comes back as it was.  So distinct names come back distinct, and the inbound hook
gives the application every field under the name it used, in the order and with the value the
database gave.
-/

namespace SqlTree
open Naming

namespace Row

/-- The row as a database has it: its keys are in the spelling of the database. -/
def stored (o : NamingOptions) (row : Row) : Row :=
  ⟨row.fields.map fun f => (snakeCase o f.1, f.2)⟩

/-- A row whose keys are distinct application names.  It holds no JSON whose keys would be renamed
as well. -/
structure IsApplicationRow (o : NamingOptions) (row : Row) : Prop where
  distinct : row.keys.Nodup
  names : ∀ f ∈ row.fields, IsApplicationName o f.1
  values : o.maintainNestedObjectKeys = false → ∀ f ∈ row.fields, ∀ j, f.2 ≠ .json j

end Row

namespace Plugin
variable {o : NamingOptions}

theorem renameNested_of_ne_json {v : Value} (h : ∀ j, v ≠ .json j) : renameNested o v = v := by
  cases v with
  | json j => exact absurd rfl (h j)
  | _ => rfl

/-- The value of a field comes in as it is. -/
theorem inboundValue_eq {row : Row} (h : row.IsApplicationRow o) {f : String × Value}
    (hf : f ∈ row.fields) :
    (if o.maintainNestedObjectKeys then f.2 else renameNested o f.2) = f.2 := by
  split
  next => rfl
  next hn => exact renameNested_of_ne_json (h.values (Bool.eq_false_iff.2 hn) f hf)

theorem renameRow_stored {row : Row} (h : row.IsApplicationRow o) :
    renameRow o (row.stored o) = row := by
  have hfields : (row.stored o).fields.map (fun e => (Naming.camelCase o e.1,
      if o.maintainNestedObjectKeys then e.2 else renameNested o e.2)) = row.fields := by
    rw [Row.stored, List.map_map]
    refine (List.map_congr_left fun f hf => ?_).trans (List.map_id row.fields)
    have hvalue := inboundValue_eq h hf
    exact Prod.ext (camelCase_snakeCase (h.names f hf)) hvalue
  rw [renameRow, Row.mapFields, hfields, Row.ofList_fields h.distinct]

/-- **Round trip.**  Whatever the options, an application name comes back from the spelling of the
database, and the naming plugin gives rows whose keys are the database spellings of distinct
application names back with these names, each row in its place and with its fields in order. -/
theorem camelCase_roundTrip (o : NamingOptions) :
    (∀ s, IsApplicationName o s → Naming.camelCase o (snakeCase o s) = s) ∧
    ∀ rows : List Row, (∀ row ∈ rows, row.IsApplicationRow o) →
      (camelCase o).inbound (rows.map (Row.stored o)) = .ok rows := by
  refine ⟨fun s h => camelCase_snakeCase h, fun rows h => ?_⟩
  have hrows : (rows.map (Row.stored o)).map (renameRow o) = rows := by
    rw [List.map_map]
    refine (List.map_congr_left fun row hrow => ?_).trans (List.map_id rows)
    exact renameRow_stored (h row hrow)
  exact congrArg Except.ok hrows

/-- A database that writes names in capitals and sets every capital and every number apart. -/
def capitalOptions : NamingOptions where
  upperCase := true
  underscoreBeforeDigits := true
  underscoreBetweenUppercaseLetters := true

def personRow : Row := ⟨[("userID", .int 7), ("line2", .text "upstairs")]⟩

theorem personRow_roundTrip :
    personRow.IsApplicationRow capitalOptions ∧
      (camelCase capitalOptions).inbound
        [⟨[("USER_I_D", .int 7), ("LINE_2", .text "upstairs")]⟩] = .ok [personRow] := by
  have hrow : personRow.IsApplicationRow capitalOptions := by
    refine ⟨by decide, ?_, ?_⟩
    · rw [personRow, List.forall_mem_cons, List.forall_mem_singleton]
      constructor <;> decide
    · rw [personRow, List.forall_mem_cons, List.forall_mem_singleton]
      exact fun _ => ⟨fun _ => Value.noConfusion, fun _ => Value.noConfusion⟩
  have hstored : personRow.stored capitalOptions =
      ⟨[("USER_I_D", .int 7), ("LINE_2", .text "upstairs")]⟩ := by
    have hid : snakeCase capitalOptions "userID" = "USER_I_D" := by decide +kernel
    have hline : snakeCase capitalOptions "line2" = "LINE_2" := by decide +kernel
    rw [Row.stored, personRow, List.map_cons, List.map_singleton, hid, hline]
  have h := (camelCase_roundTrip capitalOptions).2 [personRow] (List.forall_mem_singleton.2 hrow)
  rw [List.map_singleton, hstored] at h
  exact ⟨hrow, h⟩

end Plugin

end SqlTree
