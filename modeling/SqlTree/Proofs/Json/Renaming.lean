import Mathlib.Data.Set.Function
import SqlTree.Json.Keys
import SqlTree.Proofs.Json.Places
import SqlTree.Proofs.Text.Bytes

/-!
# JSON — renamed keys

Renaming keys keeps the shape of a value: scalars stay as they are, arrays keep their length and
order, and an object has a member for every name that one of its keys gets.  Where several keys get
one name, the greatest of them supplies the value (`Supplies`), for the members are renamed in the
order of their old keys.  `RenamesKeys` states this at every level.

Where no two keys of an object get one name (`ClashFree`), nothing is lost at any depth: what stood
at the end of a path stands at the end of the renamed path, and nothing else does (`KeepsPlaces`).

Renaming by a function that gives back the names it has given is the same done twice
(`mapKeys_mapKeys`).
-/

namespace SqlTree.Json
open Wire (textBytes textBytes_le_iff)

variable {f : String → String} {ms : List (String × Json)}

theorem mapItems_eq (f : String → String) (items : List Json) :
    mapItems f items = items.map (mapKeys f) := by
  induction items with
  | nil => rfl
  | cons j items ih => rw [mapItems, ih, List.map_cons]

theorem mapMembers_eq (f : String → String) (ms : List (String × Json)) :
    mapMembers f ms = ms.map fun m => (f m.1, mapKeys f m.2) := by
  induction ms with
  | nil => rfl
  | cons m ms ih => rw [mapMembers, ih, List.map_cons]

theorem mapKeys_array (f : String → String) (items : List Json) :
    mapKeys f (.array items) = .array (items.map (mapKeys f)) := by
  rw [mapKeys, mapItems_eq]

theorem mapKeys_object (f : String → String) (ms : List (String × Json)) :
    mapKeys f (.object ms) = .object (collect (ms.map fun m => (f m.1, mapKeys f m.2))) := by
  rw [mapKeys, mapMembers_eq, ofMembers_eq]

theorem mapKeys_of_isScalar {j : Json} (hj : j.IsScalar) : mapKeys f j = j := by
  cases j with
  | array items => exact hj.elim
  | object ms => exact hj.elim
  | _ => rfl

/-! ### One level -/

/-- The member of `key` supplies the value of `name`: of all keys that get this name, `key` has the
greatest bytes. -/
structure Supplies (f : String → String) (ms : List (String × Json)) (name key : String)
    (j : Json) : Prop where
  mem : (key, j) ∈ ms
  name_eq : f key = name
  greatest : ∀ k ∈ ms.map Prod.fst, f k = name → textBytes k ≤ textBytes key

/-- Renamed members are collected from those that supply their names. -/
theorem mem_collect_map_iff (h : Ascending ms) {F : Json → Json} {name : String} {w : Json} :
    (name, w) ∈ collect (ms.map fun m => (f m.1, F m.2)) ↔
      ∃ key j, Supplies f ms name key j ∧ w = F j := by
  rw [mem_collect_iff]
  constructor
  · rintro ⟨before, after, heq, hafter⟩
    obtain ⟨before, rest, rfl, rfl, hrest⟩ := List.map_eq_append_iff.1 heq
    obtain ⟨m, after, rfl, hm, rfl⟩ := List.map_eq_cons_iff.1 hrest
    cases hm
    obtain ⟨-, -, hbefore⟩ := List.pairwise_append.1 h
    refine ⟨m.1, m.2, ⟨List.mem_append_right before List.mem_cons_self, rfl, ?_⟩, rfl⟩
    intro k hk hname
    obtain ⟨n, hn, rfl⟩ := List.mem_map.1 hk
    rw [textBytes_le_iff]
    rcases List.mem_append.1 hn with hn | hn
    · exact le_of_lt (hbefore n hn m List.mem_cons_self)
    · rcases List.mem_cons.1 hn with rfl | hn
      · exact le_refl _
      · exact absurd hname (hafter _ (List.mem_map_of_mem hn))
  · rintro ⟨key, j, ⟨hmem, rfl, hgreatest⟩, rfl⟩
    obtain ⟨before, after, rfl⟩ := List.append_of_mem hmem
    obtain ⟨-, hrest, -⟩ := List.pairwise_append.1 h
    refine ⟨before.map _, after.map _, List.map_append, fun n' hn' hname => ?_⟩
    obtain ⟨n, hn, rfl⟩ := List.mem_map.1 hn'
    have hlt : key < n.1 := (ascending_cons.1 hrest).1 n hn
    have hmem : n.1 ∈ (before ++ (key, j) :: after).map Prod.fst :=
      List.mem_map_of_mem (List.mem_append_right before (List.mem_cons_of_mem _ hn))
    exact not_le_of_gt hlt (textBytes_le_iff.1 (hgreatest n.1 hmem hname))

/-- `F` renames the keys of all objects in a value by `f`, at every level: scalars are left as they
are, arrays are renamed item by item, and an object gets the names of its keys, each with the
renamed value of the key that supplies it. -/
structure RenamesKeys (f : String → String) (F : Json → Json) : Prop where
  scalar : ∀ j : Json, j.IsScalar → F j = j
  array : ∀ items, F (.array items) = .array (items.map F)
  object : ∀ ms, Ascending ms → ∃ ms', F (.object ms) = .object ms' ∧ Ascending ms' ∧
    (∀ name, name ∈ ms'.map Prod.fst ↔ ∃ key ∈ ms.map Prod.fst, f key = name) ∧
    ∀ name w, (name, w) ∈ ms' ↔ ∃ key j, Supplies f ms name key j ∧ w = F j

theorem renamesKeys_mapKeys (f : String → String) : RenamesKeys f (mapKeys f) where
  scalar _ := mapKeys_of_isScalar
  array := mapKeys_array f
  object ms h := by
    refine ⟨_, mapKeys_object f ms, ascending_collect _, fun name => ?_, fun name w =>
      mem_collect_map_iff h⟩
    rw [mem_map_fst_collect_iff, List.map_map, List.mem_map]
    simp only [Function.comp_apply, List.mem_map, Prod.exists, exists_and_right, exists_eq_right]

/-! ### Places -/

def Step.rename (f : String → String) : Step → Step
  | key k => key (f k)
  | index i => index i

/-- No two keys of an object get one name, at any depth. -/
def ClashFree (f : String → String) (j : Json) : Prop :=
  EveryObject (fun ms => Set.InjOn f {k | k ∈ ms.map Prod.fst}) j

section
variable {j w : Json} {p : List Step}

/-- What stood at the end of a path is renamed and stands at the end of the renamed path. -/
theorem At.mapKeys (h : At j p w) (hordered : Ordered j) (hclash : ClashFree f j) :
    At (j.mapKeys f) (p.map (Step.rename f)) (w.mapKeys f) := by
  induction h with
  | here j => exact .here _
  | @item items i j w p hi _ ih =>
    rw [mapKeys_array, List.map_cons]
    have hitem := hordered.of_at (.item hi (.here j))
    refine .item ?_ (ih hitem (hclash.of_at (.item hi (.here j))))
    rw [List.getElem?_map, hi, Option.map_some]
  | @member ms k j w p hk _ ih =>
    rw [mapKeys_object, List.map_cons]
    obtain ⟨hascending, hmembers⟩ := everyObject_object.1 hordered
    obtain ⟨hinj, hclashes⟩ := everyObject_object.1 hclash
    refine .member ?_ (ih (hmembers _ hk) (hclashes _ hk))
    refine (mem_collect_map_iff hascending).2 ⟨k, j, ⟨hk, rfl, fun l hl hname => ?_⟩, rfl⟩
    rw [hinj hl (List.mem_map_of_mem hk) hname]
    exact textBytes_le_iff.2 (le_refl k)

/-- Nothing stands in the renamed value that did not stand in the value. -/
theorem exists_at_of_mapKeys {q : List Step} {w' : Json} (h : At (j.mapKeys f) q w') :
    ∃ p w, At j p w ∧ q = p.map (Step.rename f) ∧ w' = w.mapKeys f := by
  induction q generalizing j with
  | nil => exact ⟨[], j, .here j, rfl, h.eq_of_nil⟩
  | cons s q ih =>
    cases j with
    | array items =>
      rw [mapKeys_array] at h
      cases h with
      | item hi h =>
        rw [List.getElem?_map] at hi
        obtain ⟨j, hj, rfl⟩ := Option.map_eq_some_iff.1 hi
        obtain ⟨p, w, hw, rfl, rfl⟩ := ih h
        exact ⟨_, w, .item hj hw, rfl, rfl⟩
    | object ms =>
      rw [mapKeys_object] at h
      cases h with
      | member hk h =>
        obtain ⟨m, hm, heq⟩ := List.mem_map.1 (mem_collect_iff.1 hk).mem
        cases heq
        obtain ⟨p, w, hw, rfl, rfl⟩ := ih h
        exact ⟨_, w, .member hm hw, rfl, rfl⟩
    | _ =>
      rw [mapKeys] at h
      · cases h
      all_goals exact fun _ => Json.noConfusion

/-- Different paths have different names. -/
theorem At.eq_of_rename_eq (h : At j p w) (hordered : Ordered j) (hclash : ClashFree f j)
    {p' : List Step} {w' : Json} (h' : At j p' w')
    (heq : p'.map (Step.rename f) = p.map (Step.rename f)) : p' = p := by
  induction h generalizing p' w' with
  | here j => exact List.map_eq_nil_iff.1 heq
  | @item items i j w p hi _ ih =>
    obtain ⟨s, p', rfl, hs, hp⟩ := List.map_eq_cons_iff.1 heq
    cases h' with
    | item hi' h' =>
      cases hs
      cases hi.symm.trans hi'
      rw [ih (hordered.of_at (.item hi (.here j))) (hclash.of_at (.item hi (.here j))) h' hp]
  | @member ms k j w p hk _ ih =>
    obtain ⟨hascending, hmembers⟩ := everyObject_object.1 hordered
    obtain ⟨hinj, hclashes⟩ := everyObject_object.1 hclash
    obtain ⟨s, p', rfl, hs, hp⟩ := List.map_eq_cons_iff.1 heq
    cases h' with
    | member hk' h' =>
      have hname := Step.key.inj hs
      obtain rfl := hinj (List.mem_map_of_mem hk') (List.mem_map_of_mem hk) hname
      obtain rfl := hascending.eq_of_mem hk hk'
      rw [ih (hmembers _ hk) (hclashes _ hk) h' hp]

/-! ### Leaves -/

theorem mapKeys_of_isLeaf (h : j.IsLeaf) : j.mapKeys f = j := by
  cases j with
  | array items =>
    obtain rfl : items = [] := h
    exact mapKeys_array f []
  | object ms =>
    obtain rfl := List.map_eq_nil_iff.1 h
    exact mapKeys_object f []
  | _ => rfl

theorem isLeaf_of_mapKeys (h : (j.mapKeys f).IsLeaf) : j.IsLeaf := by
  cases j with
  | array items =>
    rw [mapKeys_array] at h
    exact List.map_eq_nil_iff.1 h
  | object ms =>
    rw [mapKeys_object] at h
    have hnone := List.map_eq_nil_iff.1 h
    refine List.map_eq_nil_iff.2 (List.eq_nil_iff_forall_not_mem.2 fun m hm => ?_)
    have hname : f m.1 ∈ (ms.map fun m => (f m.1, mapKeys f m.2)).map Prod.fst :=
      List.mem_map_of_mem (f := Prod.fst) (List.mem_map_of_mem hm)
    rw [← mem_map_fst_collect_iff, hnone] at hname
    exact absurd hname List.not_mem_nil
  | _ => rfl

end

/-- The leaves of `j` stand in `j'` at the end of the renamed paths, no two of them in one place,
and no other leaf stands in `j'`. -/
structure KeepsPlaces (f : String → String) (j j' : Json) : Prop where
  kept : ∀ p w, At j p w → w.IsLeaf → At j' (p.map (Step.rename f)) w
  apart : ∀ p q v w, At j p v → At j q w →
    p.map (Step.rename f) = q.map (Step.rename f) → p = q
  only : ∀ q w, At j' q w → w.IsLeaf → ∃ p, At j p w ∧ q = p.map (Step.rename f)

theorem keepsPlaces_mapKeys {j : Json} (hordered : Ordered j) (hclash : ClashFree f j) :
    KeepsPlaces f j (j.mapKeys f) where
  kept p w hw hleaf := by
    have h := hw.mapKeys hordered hclash
    rwa [mapKeys_of_isLeaf hleaf] at h
  apart p q v w hv hw heq := hw.eq_of_rename_eq hordered hclash hv heq
  only q w hw hleaf := by
    obtain ⟨p, w, hp, rfl, rfl⟩ := exists_at_of_mapKeys hw
    rw [mapKeys_of_isLeaf (isLeaf_of_mapKeys hleaf)]
    exact ⟨p, hp, rfl⟩

/-! ### Renaming twice -/

/-- A function that gives back the names it has given renames once and for all. -/
theorem mapKeys_mapKeys {j : Json}
    (h : EveryObject (fun ms => ∀ m ∈ ms, f (f m.1) = f m.1) j) :
    (j.mapKeys f).mapKeys f = j.mapKeys f := by
  induction j using parts_induction with
  | step j ih =>
    cases j with
    | array items =>
      rw [everyObject_array] at h
      rw [mapKeys_array, mapKeys_array, List.map_map]
      exact congrArg array (List.map_congr_left fun i hi => ih i hi (h i hi))
    | object ms =>
      rw [everyObject_object] at h
      have hmembers : ∀ m ∈ collect (ms.map fun m => (f m.1, mapKeys f m.2)),
          (f m.1, mapKeys f m.2) = m := by
        intro m' hm'
        obtain ⟨m, hm, rfl⟩ := List.mem_map.1 (mem_collect_iff.1 hm').mem
        exact Prod.ext (h.1 m hm) (ih m.2 (List.mem_map_of_mem hm) (h.2 m hm))
      rw [mapKeys_object, mapKeys_object, List.map_congr_left hmembers, List.map_id',
        collect_of_ascending (ascending_collect _)]
    | _ => rfl

end SqlTree.Json
