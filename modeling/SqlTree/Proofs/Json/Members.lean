import Mathlib.Data.List.Induction
import Mathlib.Data.List.Nodup
import Mathlib.Data.String.Basic
import SqlTree.Json.Basic
import SqlTree.Proofs.Entries

/-!
# JSON — members

The members of an object are *ascending*: their keys are distinct and in order.  Setting a member
keeps them so and touches no other member (`mem_setMember_iff`).  `collect` gives the members that
are left of any list of members, and these are the last ones of their keys (`mem_collect_iff`).
Nothing is left out of members that are ascending already (`collect_of_ascending`).
-/

namespace SqlTree.Json

/-- The keys are distinct and in order. -/
def Ascending (ms : List (String × Json)) : Prop := ms.Pairwise fun m n => m.1 < n.1

instance (ms : List (String × Json)) : Decidable (Ascending ms) :=
  inferInstanceAs (Decidable (ms.Pairwise fun m n => m.1 < n.1))

variable {ms : List (String × Json)} {key : String} {value : Json} {m : String × Json}

theorem ascending_cons : Ascending (m :: ms) ↔ (∀ n ∈ ms, m.1 < n.1) ∧ Ascending ms :=
  List.pairwise_cons

theorem Ascending.nodup_keys (h : Ascending ms) : (ms.map Prod.fst).Nodup :=
  (List.pairwise_map.2 h).imp ne_of_lt

/-- A key has one value. -/
theorem Ascending.eq_of_mem (h : Ascending ms) {j j' : Json} (hj : (key, j) ∈ ms)
    (hj' : (key, j') ∈ ms) : j = j' :=
  congrArg Prod.snd (List.inj_on_of_nodup_map h.nodup_keys hj hj' rfl)

/-! ### Setting a member -/

theorem mem_setMember_iff (h : Ascending ms) :
    m ∈ setMember key value ms ↔ m = (key, value) ∨ m ∈ ms ∧ m.1 ≠ key := by
  induction ms with
  | nil => simp [setMember]
  | cons n ms ih =>
    obtain ⟨hn, hms⟩ := ascending_cons.1 h
    rw [setMember]
    split
    next hlt =>
      have hne : m ∈ n :: ms → m.1 ≠ key := by
        rintro hm rfl
        rcases List.mem_cons.1 hm with rfl | hm
        · exact lt_irrefl _ hlt
        · exact lt_asymm hlt (hn m hm)
      rw [List.mem_cons, and_iff_left_of_imp hne]
    next hlt =>
      split
      next heq =>
        have hne : m ∈ ms → m.1 ≠ key := fun hm hkey => lt_irrefl _ (heq ▸ hkey ▸ hn m hm)
        rw [List.mem_cons, List.mem_cons]
        constructor
        · rintro (rfl | hm)
          · exact .inl rfl
          · exact .inr ⟨.inr hm, hne hm⟩
        · rintro (rfl | ⟨rfl | hm, hkey⟩)
          · exact .inl rfl
          · exact absurd heq.symm hkey
          · exact .inr hm
      next heq =>
        rw [List.mem_cons, List.mem_cons, ih hms]
        constructor
        · rintro (rfl | rfl | ⟨hm, hkey⟩)
          · exact .inr ⟨.inl rfl, Ne.symm heq⟩
          · exact .inl rfl
          · exact .inr ⟨.inr hm, hkey⟩
        · rintro (rfl | ⟨rfl | hm, hkey⟩)
          · exact .inr (.inl rfl)
          · exact .inl rfl
          · exact .inr (.inr ⟨hm, hkey⟩)

theorem ascending_setMember (h : Ascending ms) : Ascending (setMember key value ms) := by
  induction ms with
  | nil => exact List.pairwise_singleton _ _
  | cons n ms ih =>
    obtain ⟨hn, hms⟩ := ascending_cons.1 h
    rw [setMember]
    split
    next hlt =>
      refine ascending_cons.2 ⟨fun m hm => ?_, h⟩
      rcases List.mem_cons.1 hm with rfl | hm
      · exact hlt
      · exact lt_trans hlt (hn m hm)
    next hlt =>
      split
      next heq => exact ascending_cons.2 ⟨fun m hm => heq ▸ hn m hm, hms⟩
      next heq =>
        have hgt : n.1 < key := lt_of_le_of_ne (not_lt.1 hlt) (Ne.symm heq)
        refine ascending_cons.2 ⟨fun m hm => ?_, ih hms⟩
        rcases (mem_setMember_iff hms).1 hm with rfl | ⟨hm, -⟩
        · exact hgt
        · exact hn m hm

/-- A key behind all others comes last. -/
theorem setMember_of_forall_lt (h : ∀ n ∈ ms, n.1 < key) :
    setMember key value ms = ms ++ [(key, value)] := by
  induction ms with
  | nil => rfl
  | cons n ms ih =>
    obtain ⟨hn, hms⟩ := List.forall_mem_cons.1 h
    rw [setMember, if_neg (lt_asymm hn), if_neg (ne_of_gt hn), ih hms, List.cons_append]

/-! ### Collecting members -/

/-- The members of an object that is given members one after the other. -/
def collect (ms : List (String × Json)) : List (String × Json) :=
  ms.foldl (fun done m => setMember m.1 m.2 done) []

theorem ofMembers_eq (ms : List (String × Json)) : ofMembers ms = .object (collect ms) := rfl

theorem collect_concat (ms : List (String × Json)) (m : String × Json) :
    collect (ms ++ [m]) = setMember m.1 m.2 (collect ms) :=
  List.foldl_concat ..

theorem ascending_collect (ms : List (String × Json)) : Ascending (collect ms) := by
  induction ms using List.reverseRecOn with
  | nil => exact List.Pairwise.nil
  | append_singleton ms m ih =>
    rw [collect_concat]
    exact ascending_setMember ih

/-- `m` is one of the members and no later one has its key. -/
def IsLast (m : String × Json) (ms : List (String × Json)) : Prop :=
  ∃ before after, ms = before ++ m :: after ∧ ∀ n ∈ after, n.1 ≠ m.1

theorem IsLast.mem (h : IsLast m ms) : m ∈ ms := by
  obtain ⟨before, after, rfl, -⟩ := h
  exact List.mem_append_right before List.mem_cons_self

theorem isLast_iff : IsLast m ms ↔ ms.reverse.lookup m.1 = some m.2 :=
  lookup_reverse_eq_some_iff.symm

theorem isLast_concat {n : String × Json} :
    IsLast m (ms ++ [n]) ↔ m = n ∨ IsLast m ms ∧ m.1 ≠ n.1 := by
  rw [isLast_iff, isLast_iff, lookup_reverse_concat, Prod.ext_iff]
  by_cases h : m.1 = n.1
  · simp [h, eq_comm]
  · simp [h]

/-- The last member of each key is left. -/
theorem mem_collect_iff : m ∈ collect ms ↔ IsLast m ms := by
  induction ms using List.reverseRecOn with
  | nil =>
    refine iff_of_false List.not_mem_nil ?_
    rintro ⟨before, after, heq, -⟩
    exact absurd heq.symm (List.append_ne_nil_of_right_ne_nil before (List.cons_ne_nil m after))
  | append_singleton ms n ih =>
    rw [collect_concat, mem_setMember_iff (ascending_collect ms), ih, isLast_concat]

/-- No key is lost. -/
theorem mem_map_fst_collect_iff :
    key ∈ (collect ms).map Prod.fst ↔ key ∈ ms.map Prod.fst := by
  induction ms using List.reverseRecOn with
  | nil => rfl
  | append_singleton ms n ih =>
    rw [collect_concat, List.map_append, List.map_singleton, List.mem_append, List.mem_singleton,
      ← ih, List.mem_map, List.mem_map]
    simp only [mem_setMember_iff (ascending_collect ms)]
    constructor
    · rintro ⟨m, rfl | ⟨hm, -⟩, rfl⟩
      · exact .inr rfl
      · exact .inl ⟨m, hm, rfl⟩
    · rintro (⟨m, hm, rfl⟩ | rfl)
      · by_cases hkey : m.1 = n.1
        · exact ⟨n, .inl rfl, hkey.symm⟩
        · exact ⟨m, .inr ⟨hm, hkey⟩, rfl⟩
      · exact ⟨n, .inl rfl, rfl⟩

theorem collect_of_ascending (h : Ascending ms) : collect ms = ms := by
  induction ms using List.reverseRecOn with
  | nil => rfl
  | append_singleton ms n ih =>
    obtain ⟨hms, -, hlt⟩ := List.pairwise_append.1 h
    rw [collect_concat, ih hms,
      setMember_of_forall_lt fun m hm => hlt m hm n (List.mem_singleton_self n)]

end SqlTree.Json
