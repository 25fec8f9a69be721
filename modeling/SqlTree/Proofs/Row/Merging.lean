import Mathlib.Data.List.Induction
import Mathlib.Data.List.Nodup
import Mathlib.Logic.Relation
import SqlTree.Proofs.Entries
import SqlTree.Row

/-!
# Rows — merging

A row is rebuilt field by field when its keys are renamed, and fields that end up with one key are
merged.  Nothing is merged where the new keys are distinct, and then the row has its fields in their
places (`Row.ofList_fields`, `Row.mapKeys_of_nodup`).  So renamings of a row compose as long as the
first of them keeps the keys apart (`Row.mapKeys_mapKeys`), also where the second may fail
(`Row.mapKeysM_mapKeys`).

What a row has after fields were merged is said by `Row.Merges`: each key once, where its first
field was and with the value of its last one.  Inserting a field keeps this (`Row.Merges.insert`),
so it holds of every collected row (`Row.merges_ofList`).  A key is therefore never repeated in a
row that was collected and then edited (`Row.merging_law`).  Only a row that comes straight from a
database may repeat one.
-/

namespace SqlTree.Row

theorem setField_of_notMem {key : String} {fields : List (String × Value)}
    (h : key ∉ fields.map Prod.fst) (value : Value) :
    setField key value fields = fields ++ [(key, value)] := by
  induction fields with
  | nil => rfl
  | cons f fs ih =>
    rw [List.map_cons, List.mem_cons, not_or] at h
    rw [setField, if_neg (Ne.symm h.1), ih h.2, List.cons_append]

/-- Fields with new and distinct keys are added to a row as they are. -/
theorem foldl_insert {row : Row} {fields : List (String × Value)}
    (h : (row.keys ++ fields.map Prod.fst).Nodup) :
    fields.foldl (fun row f => row.insert f.1 f.2) row = ⟨row.fields ++ fields⟩ := by
  induction fields generalizing row with
  | nil => rw [List.foldl_nil, List.append_nil]
  | cons f fs ih =>
    have hf : f.1 ∉ row.keys := by
      rw [List.map_cons, List.nodup_middle, List.nodup_cons, List.mem_append, not_or] at h
      exact h.1.1
    have hinsert : row.insert f.1 f.2 = ⟨row.fields ++ [f]⟩ :=
      congrArg Row.mk (setField_of_notMem hf f.2)
    have hnodup : ((⟨row.fields ++ [f]⟩ : Row).keys ++ fs.map Prod.fst).Nodup := by
      simpa [keys] using h
    rw [List.foldl_cons, hinsert, ih hnodup, List.append_assoc, List.singleton_append]

theorem ofList_fields {row : Row} (h : row.keys.Nodup) : ofList row.fields = row :=
  foldl_insert (by rwa [keys, empty, List.map_nil, List.nil_append])

section
variable {row : Row} {f : String → String}

theorem mapKeys_id (h : row.keys.Nodup) : row.mapKeys id = row := by
  have hfields : row.fields.map (fun e => (id e.1, e.2)) = row.fields := List.map_id row.fields
  rw [mapKeys, hfields, ofList_fields h]

/-- Keys that stay apart are renamed where they stand. -/
theorem mapKeys_of_nodup (h : (row.keys.map f).Nodup) :
    row.mapKeys f = ⟨row.fields.map fun e => (f e.1, e.2)⟩ := by
  have hkeys : (⟨row.fields.map fun e => (f e.1, e.2)⟩ : Row).keys = row.keys.map f := by
    rw [keys, keys, List.map_map, List.map_map]
    rfl
  exact ofList_fields (hkeys.symm ▸ h)

theorem keys_mapKeys (h : (row.keys.map f).Nodup) : (row.mapKeys f).keys = row.keys.map f := by
  rw [mapKeys_of_nodup h, keys, keys, List.map_map, List.map_map]
  rfl

theorem mapKeys_mapKeys (h : (row.keys.map f).Nodup) (g : String → String) :
    (row.mapKeys f).mapKeys g = row.mapKeys (g ∘ f) := by
  rw [mapKeys_of_nodup h, mapKeys, List.map_map]
  rfl

section
variable {m : Type → Type} [Monad m]

theorem mapKeysM_mapKeys (h : (row.keys.map f).Nodup) (g : String → m String) :
    (row.mapKeys f).mapKeysM g = row.mapKeysM (g ∘ f) := by
  rw [mapKeys_of_nodup h, mapKeysM, List.foldlM_map]
  rfl

/-- A renaming without an effect. -/
theorem mapKeysM_pure [LawfulMonad m] (row : Row) (f : String → String) :
    row.mapKeysM (fun k => (pure (f k) : m String)) = pure (row.mapKeys f) := by
  simp only [mapKeysM, pure_bind]
  rw [List.foldlM_pure, mapKeys, ofList, List.foldl_map]

end

end

/-! ### The first place and the last value -/

/-- The first field of a key counts. -/
theorem get?_eq_lookup (row : Row) (key : String) : row.get? key = row.fields.lookup key := by
  rw [get?]
  induction row.fields with
  | nil => rfl
  | cons f fs ih =>
    rw [lookup_cons_eq, ← ih, List.find?_cons]
    by_cases h : f.1 = key
    · simp [h]
    · simp [h, Ne.symm h]

theorem map_fst_setField_of_mem {key : String} {fields : List (String × Value)}
    (h : key ∈ fields.map Prod.fst) (value : Value) :
    (setField key value fields).map Prod.fst = fields.map Prod.fst := by
  induction fields with
  | nil => cases h
  | cons f fs ih =>
    rw [setField]
    split
    · rfl
    · next hne =>
      have hfs : key ∈ fs.map Prod.fst := (List.mem_cons.1 h).resolve_left (Ne.symm hne)
      rw [List.map_cons, ih hfs, List.map_cons]

theorem lookup_setField (key k : String) (value : Value) (fields : List (String × Value)) :
    (setField key value fields).lookup k = if k = key then some value else fields.lookup k := by
  induction fields with
  | nil => rw [setField, lookup_cons_eq]
  | cons f fs ih =>
    obtain ⟨j, v⟩ := f
    rw [setField]
    by_cases hj : j = key
    · rw [if_pos hj, lookup_cons_eq, lookup_cons_eq]
      by_cases hk : k = key <;> simp [hk, hj]
    · rw [if_neg hj, lookup_cons_eq, lookup_cons_eq, ih]
      by_cases hk : k = j
      · simp [hk, hj]
      · simp [hk]

/-- A key that is there keeps its place, and a new one comes last. -/
theorem keys_insert (row : Row) (key : String) (value : Value) :
    (row.insert key value).keys = if key ∈ row.keys then row.keys else row.keys ++ [key] := by
  split
  · next h => exact map_fst_setField_of_mem h value
  · next h =>
    rw [keys, insert, setField_of_notMem h, List.map_append]
    rfl

theorem get?_insert (row : Row) (key k : String) (value : Value) :
    (row.insert key value).get? k = if k = key then some value else row.get? k := by
  rw [get?_eq_lookup, get?_eq_lookup]
  exact lookup_setField key k value row.fields

theorem nodup_keys_insert {row : Row} (h : row.keys.Nodup) (key : String) (value : Value) :
    (row.insert key value).keys.Nodup := by
  rw [keys_insert]
  split
  · exact h
  · next hkey => exact List.concat_eq_append ▸ h.concat hkey

theorem eraseDups_concat (l : List String) (a : String) :
    (l ++ [a]).eraseDups = if a ∈ l then l.eraseDups else l.eraseDups ++ [a] := by
  rw [List.eraseDups_append]
  split
  · next h => simp [List.removeAll, h]
  · next h => simp [List.removeAll, h, List.eraseDups_cons]

/-- The row has each key of the fields once: in the order of the first fields of the keys, and with
the values of the last ones. -/
structure Merges (row : Row) (fields : List (String × Value)) : Prop where
  distinct : row.keys.Nodup
  keys_eq : row.keys = (fields.map Prod.fst).eraseDups
  get?_eq (key : String) : row.get? key = fields.reverse.lookup key

theorem Merges.insert {row : Row} {fields : List (String × Value)} (h : row.Merges fields)
    (f : String × Value) : (row.insert f.1 f.2).Merges (fields ++ [f]) where
  distinct := nodup_keys_insert h.distinct f.1 f.2
  keys_eq := by
    have hmem : f.1 ∈ row.keys ↔ f.1 ∈ fields.map Prod.fst := by
      rw [h.keys_eq, List.mem_eraseDups]
    rw [keys_insert, h.keys_eq, List.map_append, List.map_singleton, eraseDups_concat]
    simp only [List.mem_eraseDups]
  get?_eq key := by
    rw [get?_insert, h.get?_eq, lookup_reverse_concat]

theorem ofList_concat (fields : List (String × Value)) (f : String × Value) :
    ofList (fields ++ [f]) = (ofList fields).insert f.1 f.2 :=
  List.foldl_concat ..

/-- Fields are merged by inserting them one after the other. -/
theorem merges_ofList (fields : List (String × Value)) : (ofList fields).Merges fields := by
  induction fields using List.reverseRecOn with
  | nil => exact ⟨List.nodup_nil, rfl, fun _ => rfl⟩
  | append_singleton fs f ih =>
    rw [ofList_concat]
    exact ih.insert f

theorem setField_subset (key : String) (value : Value) (fields : List (String × Value)) :
    setField key value fields ⊆ (key, value) :: fields := by
  induction fields with
  | nil => exact List.Subset.refl _
  | cons f fs ih =>
    obtain ⟨k, v⟩ := f
    rw [setField]
    split
    next hk =>
      subst hk
      exact List.cons_subset_cons _ (List.subset_cons_self _ _)
    next =>
      refine List.cons_subset.2 ⟨List.mem_cons_of_mem _ List.mem_cons_self, fun e he => ?_⟩
      rcases List.mem_cons.1 (ih he) with rfl | he
      · exact List.mem_cons_self
      · exact List.mem_cons_of_mem _ (List.mem_cons_of_mem _ he)

/-- Merging makes no fields of its own. -/
theorem fields_ofList_subset (fields : List (String × Value)) :
    (ofList fields).fields ⊆ fields := by
  induction fields using List.reverseRecOn with
  | nil => exact List.Subset.refl _
  | append_singleton fs f ih =>
    rw [ofList_concat]
    intro e he
    rcases List.mem_cons.1 (setField_subset _ _ _ he) with rfl | he
    · exact List.mem_append_right fs List.mem_cons_self
    · exact List.mem_append_left [f] (ih he)

/-- A change of fields that keeps what it made changes a row once and for all. -/
theorem mapFields_mapFields {f : String → Value → String × Value} {row : Row}
    (h : ∀ e ∈ row.fields, f (f e.1 e.2).1 (f e.1 e.2).2 = f e.1 e.2) :
    (row.mapFields f).mapFields f = row.mapFields f := by
  have hfields : ∀ e ∈ (row.mapFields f).fields, f e.1 e.2 = e := by
    intro e he
    obtain ⟨e', he', rfl⟩ := List.mem_map.1 (fields_ofList_subset _ he)
    exact h e' he'
  have hdistinct : (row.mapFields f).keys.Nodup := (merges_ofList _).distinct
  rw [mapFields, List.map_congr_left hfields, List.map_id', ofList_fields hdistinct]

/-- A field whose key no later field has is the one that is left. -/
theorem Merges.get?_of_last {row : Row} {before after : List (String × Value)} {key : String}
    {value : Value} (h : row.Merges (before ++ (key, value) :: after))
    (hafter : ∀ e ∈ after, e.1 ≠ key) : row.get? key = some value := by
  rw [h.get?_eq]
  exact lookup_reverse_eq_some_iff.2 ⟨before, after, rfl, hafter⟩

/-! ### Edited rows -/

/-- The row with other keys, of which those that are the same are merged. -/
def withKeys (row : Row) (names : List String) : Row :=
  ofList (names.zip (row.fields.map Prod.snd))

theorem withKeys_map (row : Row) (f : String → String) :
    row.withKeys (row.keys.map f) = row.mapKeys f := by
  rw [withKeys, keys, List.map_map, List.zip_map', mapKeys]
  rfl

section
variable {m : Type → Type} [Monad m] [LawfulMonad m]

/-- A renaming in progress has merged the fields it has passed, and renames those that follow. -/
theorem foldlM_insert (f : String → m String) (fields : List (String × Value)) (done : Row) :
    fields.foldlM (fun done e => do
        let key ← f e.1
        return done.insert key e.2) done =
      (fun names => (names.zip (fields.map Prod.snd)).foldl
        (fun row e => row.insert e.1 e.2) done) <$> (fields.map Prod.fst).mapM f := by
  induction fields generalizing done with
  | nil =>
    simp only [List.map_nil, List.mapM_nil, map_pure, List.foldlM_nil]
    rfl
  | cons e es ih =>
    simp only [List.foldlM_cons, List.map_cons, List.mapM_cons, bind_assoc, pure_bind, ih,
      List.zip_cons_cons, List.foldl_cons, map_eq_pure_bind]

/-- All keys may be renamed first, in their order, and be merged then. -/
theorem mapKeysM_eq (row : Row) (f : String → m String) :
    row.mapKeysM f = row.withKeys <$> row.keys.mapM f :=
  foldlM_insert f row.fields empty

end

/-- One call that changes a row or makes another of it. -/
inductive Edit : Row → Row → Prop
  | insert (row : Row) (key : String) (value : Value) : Edit row (row.insert key value)
  | mapKeys (row : Row) (f : String → String) : Edit row (row.mapKeys f)
  | mapFields (row : Row) (f : String → Value → String × Value) : Edit row (row.mapFields f)
  | mapKeysM {E : Type} {row row' : Row} (f : String → Except E String)
      (h : row.mapKeysM f = .ok row') : Edit row row'

theorem Edit.nodup_keys {row row' : Row} (h : Edit row row') (hrow : row.keys.Nodup) :
    row'.keys.Nodup := by
  cases h with
  | insert _ key value => exact nodup_keys_insert hrow key value
  | mapKeys _ f => exact (merges_ofList _).distinct
  | mapFields _ f => exact (merges_ofList _).distinct
  | mapKeysM f h =>
    rw [mapKeysM_eq] at h
    cases hnames : row.keys.mapM f with
    | error e => rw [hnames] at h; cases h
    | ok names =>
      rw [hnames] at h
      cases h
      exact (merges_ofList _).distinct

theorem nodup_keys_of_edits {row row' : Row} (h : Relation.ReflTransGen Edit row row')
    (hrow : row.keys.Nodup) : row'.keys.Nodup := by
  induction h with
  | refl => exact hrow
  | tail _ hedit ih => exact hedit.nodup_keys ih

/-- **The merging law.**  Fields that are collected into a row or renamed are merged: each key stays
once, at its first place and with its last value.  However a collected row is edited, it never
repeats a key. -/
theorem merging_law :
    (∀ fields, (ofList fields).Merges fields) ∧
    (∀ (row : Row) (f : String → String),
      (row.mapKeys f).Merges (row.fields.map fun e => (f e.1, e.2))) ∧
    (∀ (row : Row) (f : String → Value → String × Value),
      (row.mapFields f).Merges (row.fields.map fun e => f e.1 e.2)) ∧
    ∀ start row : Row, (start = empty ∨ ∃ fields, start = ofList fields) →
      Relation.ReflTransGen Edit start row → row.keys.Nodup := by
  refine ⟨merges_ofList, fun _ _ => merges_ofList _, fun _ _ => merges_ofList _, ?_⟩
  rintro start row (rfl | ⟨fields, rfl⟩) hedits
  · exact nodup_keys_of_edits hedits List.nodup_nil
  · exact nodup_keys_of_edits hedits (merges_ofList fields).distinct

/-- Columns of which two have one name are collected, a field is added, and two renamings let keys
clash again. -/
theorem nodup_keys_of_clashing_edits :
    Relation.ReflTransGen Edit
        (ofList [("a", .int 1), ("b", .int 2), ("a", .int 3), ("d", .int 5)])
        ⟨[("c", .int 4), ("d", .int 5)]⟩ ∧
      (⟨[("c", .int 4), ("d", .int 5)]⟩ : Row).keys.Nodup := by
  have hinsert : Edit (ofList [("a", .int 1), ("b", .int 2), ("a", .int 3), ("d", .int 5)])
      ⟨[("a", .int 3), ("b", .int 2), ("d", .int 5), ("c", .int 4)]⟩ := .insert _ "c" (.int 4)
  have hmap : Edit ⟨[("a", .int 3), ("b", .int 2), ("d", .int 5), ("c", .int 4)]⟩
      ⟨[("b", .int 2), ("d", .int 5), ("c", .int 4)]⟩ :=
    .mapKeys _ fun k => if k = "a" then "b" else k
  have htry : Edit ⟨[("b", .int 2), ("d", .int 5), ("c", .int 4)]⟩
      ⟨[("c", .int 4), ("d", .int 5)]⟩ :=
    .mapKeysM (E := String) (fun k => if k = "b" then .ok "c" else .ok k) rfl
  have hedits := ((Relation.ReflTransGen.single hinsert).tail hmap).tail htry
  exact ⟨hedits, merging_law.2.2.2 _ _ (.inr ⟨_, rfl⟩) hedits⟩

end SqlTree.Row
