import Mathlib.Data.Set.Function
import SqlTree.Proofs.Row.Merging
import SqlTree.Proofs.Traced

/-!
# Rows — renaming

A renaming that keeps the keys of a row apart merges only fields that had one key before.  It is
therefore the same as merging the row first and renaming the keys where they stand then
(`Row.mapKeys_eq_relabel`): a row of distinct keys keeps its fields, their order and what is read
from them, and of a repeated key the last field is left, in the place of the first one.  Reading
such a row before it is renamed gives the value of the first field instead.

A renaming that may fail calls the function on the keys in their order and stops at the first key
that is refused.  `Row.reporting` lets a function report its calls, and `Row.refusing_renaming` says
which calls are made and how the renaming ends.
-/

namespace SqlTree.Row

/-! ### Keys that stay apart -/

/-- The row with its keys renamed where they stand. -/
def relabel (f : String → String) (row : Row) : Row := ⟨row.fields.map fun e => (f e.1, e.2)⟩

section
variable {f : String → String} {key : String} {fields : List (String × Value)}

/-- Setting a field commutes with a renaming that gives its key to no other one. -/
theorem setField_map (h : ∀ k ∈ fields.map Prod.fst, f k = f key → k = key) (value : Value) :
    setField (f key) value (fields.map fun e => (f e.1, e.2)) =
      (setField key value fields).map fun e => (f e.1, e.2) := by
  induction fields with
  | nil => rfl
  | cons e es ih =>
    rw [List.map_cons, List.forall_mem_cons] at h
    rw [List.map_cons, setField, setField]
    by_cases he : e.1 = key
    · rw [if_pos he, if_pos (congrArg f he), List.map_cons]
    · rw [if_neg he, if_neg (mt h.1 he), ih h.2, List.map_cons]

theorem lookup_map (h : ∀ k ∈ fields.map Prod.fst, f k = f key → k = key) :
    (fields.map fun e => (f e.1, e.2)).lookup (f key) = fields.lookup key := by
  induction fields with
  | nil => rfl
  | cons e es ih =>
    rw [List.map_cons, List.forall_mem_cons] at h
    have hkey : f key = f e.1 ↔ key = e.1 := ⟨fun hf => (h.1 hf.symm).symm, congrArg f⟩
    rw [List.map_cons, lookup_cons_eq, lookup_cons_eq, ih h.2, if_congr hkey rfl rfl]

end

section
variable {row : Row} {f : String → String} {key : String}

@[simp] theorem keys_relabel (row : Row) (f : String → String) :
    (row.relabel f).keys = row.keys.map f := by
  rw [keys, keys, List.map_map, relabel, List.map_map]
  rfl

@[simp] theorem size_relabel (row : Row) (f : String → String) : (row.relabel f).size = row.size :=
  List.length_map _

theorem insert_relabel (h : ∀ k ∈ row.keys, f k = f key → k = key) (value : Value) :
    (row.relabel f).insert (f key) value = (row.insert key value).relabel f :=
  congrArg Row.mk (setField_map h value)

theorem get?_relabel (h : ∀ k ∈ row.keys, f k = f key → k = key) :
    (row.relabel f).get? (f key) = row.get? key := by
  rw [get?_eq_lookup, get?_eq_lookup]
  exact lookup_map h

end

/-! ### Renaming and merging -/

section
variable {f : String → String}

theorem ofList_map {fields : List (String × Value)}
    (hf : Set.InjOn f {k | k ∈ fields.map Prod.fst}) :
    ofList (fields.map fun e => (f e.1, e.2)) = (ofList fields).relabel f := by
  induction fields using List.reverseRecOn with
  | nil => rfl
  | append_singleton fs e ih =>
    have hsub : ∀ k ∈ fs.map Prod.fst, k ∈ (fs ++ [e]).map Prod.fst := fun k hk =>
      List.map_append ▸ List.mem_append_left _ hk
    have hlast : e.1 ∈ (fs ++ [e]).map Prod.fst := List.mem_map_of_mem List.mem_concat_self
    have hapart : ∀ k ∈ (ofList fs).keys, f k = f e.1 → k = e.1 := by
      intro k hk
      rw [(merges_ofList fs).keys_eq, List.mem_eraseDups] at hk
      exact hf (hsub k hk) hlast
    rw [List.map_append, List.map_singleton, ofList_concat, ofList_concat, ih (hf.mono hsub),
      insert_relabel hapart]

variable {row : Row}

theorem mapKeys_eq_relabel (hf : Set.InjOn f {k | k ∈ row.keys}) :
    row.mapKeys f = (ofList row.fields).relabel f :=
  ofList_map hf

theorem keys_mapKeys_of_injOn (hf : Set.InjOn f {k | k ∈ row.keys}) :
    (row.mapKeys f).keys = row.keys.eraseDups.map f := by
  rw [mapKeys_eq_relabel hf, keys_relabel, (merges_ofList row.fields).keys_eq, keys]

/-- Of a key that a row repeats, the last field is left. -/
theorem get?_mapKeys_of_injOn (hf : Set.InjOn f {k | k ∈ row.keys}) {k : String}
    (hk : k ∈ row.keys) : (row.mapKeys f).get? (f k) = row.fields.reverse.lookup k := by
  have hmerged := merges_ofList row.fields
  have hapart : ∀ j ∈ (ofList row.fields).keys, f j = f k → j = k := by
    intro j hj
    rw [hmerged.keys_eq, List.mem_eraseDups] at hj
    exact hf hj hk
  rw [mapKeys_eq_relabel hf, get?_relabel hapart, hmerged.get?_eq]

theorem eraseDups_sublist (l : List String) : l.eraseDups.Sublist l := by
  induction l using List.reverseRecOn with
  | nil => exact List.Sublist.slnil
  | append_singleton l a ih =>
    rw [eraseDups_concat]
    split
    · exact ih.trans (List.sublist_append_left l [a])
    · exact ih.append_right [a]

theorem size_eq_length_keys (row : Row) : row.size = row.keys.length := (List.length_map _).symm

/-- Fields are lost exactly if a key is repeated. -/
theorem size_mapKeys_iff (hf : Set.InjOn f {k | k ∈ row.keys}) :
    (row.mapKeys f).size = row.size ↔ row.keys.Nodup := by
  rw [mapKeys_eq_relabel hf, size_relabel]
  constructor
  · intro h
    have hmerged := merges_ofList row.fields
    have hkeys : (ofList row.fields).keys = row.keys.eraseDups := hmerged.keys_eq
    rw [size_eq_length_keys, size_eq_length_keys, hkeys] at h
    have hdistinct := hmerged.distinct
    rwa [hkeys, (eraseDups_sublist row.keys).eq_of_length h] at hdistinct
  · intro h
    rw [ofList_fields h]

/-- The fields of `row` under other names. -/
structure Renames (f : String → String) (row row' : Row) : Prop where
  keys_eq : row'.keys = row.keys.map f
  size_eq : row'.size = row.size
  get?_eq : ∀ k ∈ row.keys, row'.get? (f k) = row.get? k

theorem renames_mapKeys (hrow : row.keys.Nodup) (hf : Set.InjOn f {k | k ∈ row.keys}) :
    row.Renames f (row.mapKeys f) := by
  have heq : row.mapKeys f = row.relabel f := by rw [mapKeys_eq_relabel hf, ofList_fields hrow]
  rw [heq]
  exact ⟨keys_relabel row f, size_relabel row f, fun k hk => get?_relabel fun j hj => hf hj hk⟩

end

/-! ### Keys that are refused -/

section
variable {E : Type} {f : String → Except E String}

/-- The function with a report of every call. -/
def reporting (f : String → Except E String) (key : String) : Traced String E String :=
  ⟨[key], f key⟩

/-- `key` is the first of the keys that the function refuses, and `before` are those in front of
it. -/
structure FirstRefused (f : String → Except E String) (keys before : List String) (key : String)
    (e : E) : Prop where
  reached : ∃ after, keys = before ++ key :: after
  named : ∀ k ∈ before, ∃ name, f k = .ok name
  refused : f key = .error e

theorem result_mapM_reporting (f : String → Except E String) (keys : List String) :
    (keys.mapM (reporting f)).result = keys.mapM f := by
  induction keys with
  | nil => rfl
  | cons k ks ih =>
    rw [List.mapM_cons, List.mapM_cons, Traced.result_bind]
    refine congrArg (f k >>= ·) (funext fun name => ?_)
    rw [Traced.result_bind, ih]
    rfl

theorem mapM_reporting_ok {g : String → String} {keys : List String}
    (h : ∀ k ∈ keys, f k = .ok (g k)) : keys.mapM (reporting f) = ⟨keys, .ok (keys.map g)⟩ := by
  induction keys with
  | nil => rfl
  | cons k ks ih =>
    rw [List.forall_mem_cons] at h
    rw [List.mapM_cons, reporting, h.1, ih h.2, Traced.bind_mk_ok, Traced.bind_mk_ok]
    exact congrArg (Traced.mk · _) (congrArg (k :: ·) (List.append_nil ks))

/-- No key behind one that is refused is looked at. -/
theorem FirstRefused.mapM_reporting {keys before : List String} {key : String} {e : E}
    (h : FirstRefused f keys before key e) :
    keys.mapM (reporting f) = ⟨before ++ [key], .error e⟩ := by
  obtain ⟨⟨after, rfl⟩, hnamed, hkey⟩ := h
  induction before with
  | nil =>
    rw [List.nil_append, List.mapM_cons, reporting, hkey, Traced.bind_mk_error, List.nil_append]
  | cons k ks ih =>
    rw [List.forall_mem_cons] at hnamed
    obtain ⟨⟨name, hk⟩, hks⟩ := hnamed
    rw [List.cons_append, List.mapM_cons, reporting, hk, ih hks, Traced.bind_mk_ok,
      Traced.bind_mk_error]
    rfl

theorem FirstRefused.not_named {keys before : List String} {key : String} {e : E}
    (h : FirstRefused f keys before key e) : ¬ ∀ k ∈ keys, ∃ name, f k = .ok name := by
  intro hnamed
  obtain ⟨after, hafter⟩ := h.reached
  have hmem : key ∈ keys := hafter ▸ List.mem_append_right before List.mem_cons_self
  obtain ⟨name, hname⟩ := hnamed key hmem
  rw [h.refused] at hname
  cases hname

/-- The function names all keys, or there is a first one that it refuses. -/
theorem named_or_firstRefused (f : String → Except E String) (keys : List String) :
    (∀ k ∈ keys, ∃ name, f k = .ok name) ∨ ∃ before key e, FirstRefused f keys before key e := by
  induction keys with
  | nil => exact .inl fun _ hk => absurd hk List.not_mem_nil
  | cons k ks ih =>
    cases hk : f k with
    | error e => exact .inr ⟨[], k, e, ⟨ks, rfl⟩, fun _ hj => absurd hj List.not_mem_nil, hk⟩
    | ok name =>
      rcases ih with hks | ⟨before, key, e, ⟨after, rfl⟩, hnamed, hkey⟩
      · exact .inl (List.forall_mem_cons.2 ⟨⟨name, hk⟩, hks⟩)
      · exact .inr ⟨k :: before, key, e, ⟨after, rfl⟩, List.forall_mem_cons.2 ⟨⟨name, hk⟩, hnamed⟩,
          hkey⟩

variable {row : Row}

/-- Reporting its calls does not change how a renaming ends. -/
theorem result_mapKeysM_reporting (f : String → Except E String) (row : Row) :
    (row.mapKeysM (reporting f)).result = row.mapKeysM f := by
  rw [mapKeysM_eq, mapKeysM_eq, Traced.result_map, result_mapM_reporting]
  rfl

theorem mapKeysM_reporting_ok {g : String → String} (h : ∀ k ∈ row.keys, f k = .ok (g k)) :
    row.mapKeysM (reporting f) = ⟨row.keys, .ok (row.mapKeys g)⟩ := by
  rw [mapKeysM_eq, mapM_reporting_ok h, Traced.map_mk_ok, withKeys_map]

theorem FirstRefused.mapKeysM_reporting {before : List String} {key : String} {e : E}
    (h : FirstRefused f row.keys before key e) :
    row.mapKeysM (reporting f) = ⟨before ++ [key], .error e⟩ := by
  rw [mapKeysM_eq, h.mapM_reporting, Traced.map_mk_error]

theorem mapKeysM_of_ok {g : String → String} (h : ∀ k ∈ row.keys, f k = .ok (g k)) :
    row.mapKeysM f = .ok (row.mapKeys g) := by
  rw [← result_mapKeysM_reporting, mapKeysM_reporting_ok h]

theorem FirstRefused.mapKeysM {before : List String} {key : String} {e : E}
    (h : FirstRefused f row.keys before key e) : row.mapKeysM f = .error e := by
  rw [← result_mapKeysM_reporting, h.mapKeysM_reporting]

theorem mapKeysM_ok_iff :
    (∃ row', row.mapKeysM f = .ok row') ↔ ∀ k ∈ row.keys, ∃ name, f k = .ok name := by
  rcases named_or_firstRefused f row.keys with hnamed | ⟨before, key, e, h⟩
  · refine iff_of_true ?_ hnamed
    choose! g hg using hnamed
    exact ⟨_, mapKeysM_of_ok hg⟩
  · refine iff_of_false ?_ h.not_named
    rintro ⟨row', hrow'⟩
    rw [h.mapKeysM] at hrow'
    cases hrow'

theorem mapKeysM_error_iff {e : E} :
    row.mapKeysM f = .error e ↔ ∃ before key, FirstRefused f row.keys before key e := by
  constructor
  · intro he
    rcases named_or_firstRefused f row.keys with hnamed | ⟨before, key, e', h⟩
    · obtain ⟨row', hrow'⟩ := mapKeysM_ok_iff.2 hnamed
      rw [hrow'] at he
      cases he
    · rw [h.mapKeysM] at he
      cases he
      exact ⟨before, key, h⟩
  · rintro ⟨before, key, h⟩
    exact h.mapKeysM

/-- **Renaming with refusals.**  It has a row exactly if no key is refused, the row that the same
names give without refusals, and then every key was looked at in its turn.  Otherwise it ends with
the error of the first key refused, and that key was the last one looked at. -/
theorem refusing_renaming (row : Row) (f : String → Except E String) :
    (row.mapKeysM (reporting f)).result = row.mapKeysM f ∧
    ((∃ row', row.mapKeysM f = .ok row') ↔ ∀ k ∈ row.keys, ∃ name, f k = .ok name) ∧
    (∀ g : String → String, (∀ k ∈ row.keys, f k = .ok (g k)) →
      row.mapKeysM f = .ok (row.mapKeys g) ∧
      row.mapKeysM f = .ok (row.mapFields fun k v => (g k, v)) ∧
      (row.mapKeysM (reporting f)).log = row.keys) ∧
    (∀ e, row.mapKeysM f = .error e ↔ ∃ before k, FirstRefused f row.keys before k e) ∧
    ∀ before k e, FirstRefused f row.keys before k e →
      (row.mapKeysM (reporting f)).log = before ++ [k] := by
  refine ⟨result_mapKeysM_reporting f row, mapKeysM_ok_iff, ?_, fun _ => mapKeysM_error_iff, ?_⟩
  · intro g hg
    exact ⟨mapKeysM_of_ok hg, mapKeysM_of_ok hg, by rw [mapKeysM_reporting_ok hg]⟩
  · intro before k e h
    rw [h.mapKeysM_reporting]

/-- Gives every key one name, except one that it refuses. -/
def sameNameUnlessBad (key : String) : Except String String :=
  if key = "bad" then .error "refused" else .ok "name"

/-- Two fields that get one name are merged, and a key behind the one refused is not looked at. -/
theorem refusing_renaming_of_clashes :
    ((⟨[("a", .int 1), ("b", .int 2)]⟩ : Row).mapKeysM sameNameUnlessBad =
        .ok ((⟨[("a", .int 1), ("b", .int 2)]⟩ : Row).mapKeys fun _ => "name")) ∧
      FirstRefused sameNameUnlessBad ["a", "a", "bad", "c"] ["a", "a"] "bad" "refused" ∧
      ((⟨[("a", .int 1), ("a", .int 2), ("bad", .int 3), ("c", .int 4)]⟩ : Row).mapKeysM
        (reporting sameNameUnlessBad)).log = ["a", "a", "bad"] := by
  have hfirst : FirstRefused sameNameUnlessBad ["a", "a", "bad", "c"] ["a", "a"] "bad" "refused" :=
    ⟨⟨["c"], rfl⟩, fun k hk => ⟨"name", by rcases List.mem_pair.1 hk with rfl | rfl <;> rfl⟩, rfl⟩
  have hnamed : ∀ k ∈ ["a", "b"], sameNameUnlessBad k = .ok "name" :=
    List.forall_mem_cons.2 ⟨rfl, List.forall_mem_singleton.2 rfl⟩
  exact ⟨((refusing_renaming ⟨[("a", .int 1), ("b", .int 2)]⟩ _).2.2.1 _ hnamed).1, hfirst,
    (refusing_renaming ⟨[("a", .int 1), ("a", .int 2), ("bad", .int 3), ("c", .int 4)]⟩ _).2.2.2.2
      _ _ _ hfirst⟩

end

end SqlTree.Row
