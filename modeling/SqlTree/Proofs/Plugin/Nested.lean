import Mathlib.Data.List.Forall2
import SqlTree.Proofs.Json.Renaming
import SqlTree.Proofs.Plugin.Inbound

/-!
# Plugins — JSON inside rows

The inbound hook of the naming plugin renames the keys of JSON values inside rows along with the
keys of the rows, or leaves the values alone if the options say so (`Plugin.inboundJson`).

**Nested keys** (`Plugin.inbound_nested`).  A JSON value comes in with its shape, its scalars and
the order of its arrays, and with the keys of its objects renamed at every depth.  Where keys of one
object get the same name, the greatest of them in the order of bytes supplies the value.  Where none
do, every leaf is found at the end of the renamed path.
-/

namespace SqlTree
open Json (Ordered ClashFree RenamesKeys KeepsPlaces At Step)

namespace Plugin
variable {o : NamingOptions}

/-- What the inbound hook makes of a JSON value. -/
def inboundJson (o : NamingOptions) (j : Json) : Json :=
  if o.maintainNestedObjectKeys then j else j.mapKeys (Naming.camelCase o)

theorem inboundValue_json (o : NamingOptions) (j : Json) :
    (if o.maintainNestedObjectKeys then Value.json j else renameNested o (.json j)) =
      .json (inboundJson o j) := by
  rw [inboundJson]
  split <;> rfl

theorem inboundJson_of_maintain (h : o.maintainNestedObjectKeys = true) (j : Json) :
    inboundJson o j = j := by
  rw [inboundJson, if_pos h]

theorem inboundJson_of_not_maintain (h : o.maintainNestedObjectKeys = false) :
    inboundJson o = Json.mapKeys (Naming.camelCase o) := by
  funext j
  rw [inboundJson, h, if_neg Bool.false_ne_true]

/-- `row'` has the JSON values of `row` under the new names of their keys, each changed by `F`.  A
value whose name goes to a later field as well is not looked for. -/
def HasNested (o : NamingOptions) (F : Json → Json) (row row' : Row) : Prop :=
  ∀ before key j after, row.fields = before ++ (key, .json j) :: after →
    (∀ e ∈ after, Naming.camelCase o e.1 ≠ Naming.camelCase o key) →
    row'.get? (Naming.camelCase o key) = some (.json (F j))

theorem hasNested_renameRow (o : NamingOptions) (row : Row) :
    HasNested o (inboundJson o) row (renameRow o row) := by
  intro before key j after hfields hafter
  let inboundField (e : String × Value) : String × Value :=
    (Naming.camelCase o e.1, if o.maintainNestedObjectKeys then e.2 else renameNested o e.2)
  have hmerges : (renameRow o row).Merges (before.map inboundField ++
      (Naming.camelCase o key, .json (inboundJson o j)) :: after.map inboundField) := by
    rw [← inboundValue_json, renameRow, Row.mapFields, hfields, List.map_append, List.map_cons]
    exact Row.merges_ofList _
  exact hmerges.get?_of_last (List.forall_mem_map.2 hafter)

/-- **Nested keys.**  The inbound hook rewrites every JSON value in a row.  If nested keys are to be
maintained, the value stays as it is.  Otherwise its keys are renamed at every level, scalars and
the items of arrays keep their places, and of several keys that get one name the greatest supplies
the value; and as long as no two keys of an object get one name, every leaf is kept, at the end of
the renamed path. -/
theorem inbound_nested (o : NamingOptions) :
    (∀ rows, ∃ rows', (camelCase o).inbound rows = .ok rows' ∧
      List.Forall₂ (HasNested o (inboundJson o)) rows rows') ∧
    (o.maintainNestedObjectKeys = true → ∀ j, inboundJson o j = j) ∧
    (o.maintainNestedObjectKeys = false →
      RenamesKeys (Naming.camelCase o) (inboundJson o) ∧
      ∀ j, Ordered j → ClashFree (Naming.camelCase o) j →
        KeepsPlaces (Naming.camelCase o) j (inboundJson o j)) := by
  refine ⟨fun rows => ⟨_, rfl, ?_⟩, inboundJson_of_maintain, fun h => ?_⟩
  · rw [List.forall₂_map_right_iff, List.forall₂_same]
    exact fun row _ => hasNested_renameRow o row
  · rw [inboundJson_of_not_maintain h]
    exact ⟨Json.renamesKeys_mapKeys _, fun j hordered hclash =>
      Json.keepsPlaces_mapKeys hordered hclash⟩

def visitMembers : List (String × Json) := [("visit_date", .null)]

/-- A pet and the vets it was taken to. -/
def petMembers : List (String × Json) :=
  [("pet_name", .string "Rex"), ("vet_visits", .array [.object visitMembers])]

/-- Two keys for one name, in order. -/
def clashingMembers : List (String × Json) := [("petName", .int 1), ("pet_name", .int 2)]

theorem everyObject_pet {P : List (String × Json) → Prop} (hpet : P petMembers)
    (hvisit : P visitMembers) : Json.EveryObject P (.object petMembers) := by
  have hdate : Json.EveryObject P (.object visitMembers) :=
    Json.everyObject_object.2
      ⟨hvisit, List.forall_mem_singleton.2 (Json.everyObject_of_isScalar trivial)⟩
  refine Json.everyObject_object.2 ⟨hpet, List.forall_mem_cons.2 ⟨?_, ?_⟩⟩
  · exact Json.everyObject_of_isScalar trivial
  · exact List.forall_mem_singleton.2 (Json.everyObject_array.2 (List.forall_mem_singleton.2 hdate))

/-- The date of a visit is found where it was, and of two keys for one name the one with the
underscore is the greater one. -/
theorem inbound_pet :
    (∃ rows', (camelCase {}).inbound [⟨[("pet_info", .json (.object petMembers))]⟩] = .ok rows' ∧
      List.Forall₂ (HasNested {} (inboundJson {}))
        [⟨[("pet_info", .json (.object petMembers))]⟩] rows') ∧
    At (inboundJson {} (.object petMembers))
      [.key "vetVisits", .index 0, .key "visitDate"] .null ∧
    (∃ ms', inboundJson {} (.object clashingMembers) = .object ms' ∧ ("petName", .int 2) ∈ ms') ∧
    inboundJson { maintainNestedObjectKeys := true } (.object petMembers) =
      .object petMembers := by
  have hunderscore : Naming.camelCase {} "pet_name" = "petName" := by decide +kernel
  have hvisits : Naming.camelCase {} "vet_visits" = "vetVisits" := by decide +kernel
  have hdate : Naming.camelCase {} "visit_date" = "visitDate" := by decide +kernel
  have hordered : Ordered (.object petMembers) := everyObject_pet (by decide) (by decide)
  have hclash : ClashFree (Naming.camelCase {}) (.object petMembers) := by
    apply everyObject_pet
    · simp [Set.InjOn, petMembers, hunderscore, hvisits]
    · simp [Set.InjOn, visitMembers]
  obtain ⟨hrenames, hplaces⟩ := (inbound_nested {}).2.2 rfl
  refine ⟨(inbound_nested {}).1 _, ?_, ?_, (inbound_nested _).2.1 rfl _⟩
  · have hat : At (.object petMembers) [.key "vet_visits", .index 0, .key "visit_date"] .null :=
      .member (List.mem_cons_of_mem _ List.mem_cons_self)
        (.item rfl (.member List.mem_cons_self (.here _)))
    have h := (hplaces _ hordered hclash).kept _ _ hat rfl
    simpa only [List.map_cons, List.map_nil, Step.rename, hvisits, hdate] using h
  · obtain ⟨ms', hms', -, -, hmembers⟩ := hrenames.object clashingMembers (by decide)
    refine ⟨ms', hms', (hmembers _ _).2 ⟨"pet_name", .int 2, ⟨?_, hunderscore, ?_⟩, ?_⟩⟩
    · exact List.mem_cons_of_mem _ List.mem_cons_self
    · have hgreatest : ∀ k ∈ clashingMembers.map Prod.fst, k ≤ "pet_name" := by decide
      exact fun k hk _ => Wire.textBytes_le_iff.2 (hgreatest k hk)
    · exact (hrenames.scalar (.int 2) trivial).symm

end Plugin

end SqlTree
