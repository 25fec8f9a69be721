import SqlTree.Proofs.Naming.Letters

/-!
# Naming — converting twice

A name that is already in the spelling of the database has no capitals, so nothing is left in it to
be lowered or marked (`snakeCase_of_isStoredName`).  A name that is already in the spelling of the
application has no underscore behind its first character; if that one is an underscore, what follows
it was raised before (`raise_raise`).  So either conversion of an ASCII name is the same done twice,
where the database writes its names neither in capitals nor with numbers set apart: names in
capitals are capitals to the first scan again, and a number that was set apart is set apart from its
underscore.
-/

namespace SqlTree.Naming
open Text

variable {o : NamingOptions} {s : List Char}

/-! ### The spelling of the database -/

theorem snakeAfter_of_isStored (hdigits : o.underscoreBeforeDigits = false) {prev : Char}
    (hs : ∀ c ∈ s, IsStored c) : snakeAfter o prev s = s := by
  induction s generalizing prev with
  | nil => rfl
  | cons c s ih =>
    obtain ⟨⟨hc, hupper⟩, hs⟩ := List.forall_mem_cons.1 hs
    have hcapital : ¬ isUpper c = true := by rwa [isUpper_eq hc]
    rw [snakeAfter, hdigits, Bool.false_and, Bool.false_and, if_neg Bool.false_ne_true,
      if_neg hcapital, ih hs, List.singleton_append]

theorem lower_of_isStored {c : Char} (h : IsStored c) : lower c = [c] := by
  rw [lower_of_isAscii h.1]
  exact forall_ascii (P := fun c => ¬ c.isUpper → [c.toLower] = [c]) (by decide +kernel) h.1 h.2

theorem snakeChars_of_isStored (hupper : o.upperCase = false)
    (hdigits : o.underscoreBeforeDigits = false) (hs : ∀ c ∈ s, IsStored c) :
    snakeChars o s = s := by
  cases s with
  | nil => rw [snakeChars]
  | cons c s =>
    obtain ⟨hc, hs⟩ := List.forall_mem_cons.1 hs
    rw [snakeChars, hupper, if_neg Bool.false_ne_true, lower_of_isStored hc,
      snakeAfter_of_isStored hdigits hs, List.singleton_append]

theorem isStored_of_mem_snakeChars (hupper : o.upperCase = false) (hs : IsAscii s) :
    ∀ c ∈ snakeChars o s, IsStored c := by
  cases s with
  | nil => rw [snakeChars]; exact List.forall_mem_nil _
  | cons c s =>
    obtain ⟨hc, hs⟩ := isAscii_cons.1 hs
    rw [snakeChars, hupper, if_neg Bool.false_ne_true, List.forall_mem_append]
    exact ⟨isStored_of_mem_lower hc, isStored_of_mem_snakeAfter hs⟩

/-- The name is in the spelling of the database. -/
def IsStoredName (s : String) : Prop := ∀ c ∈ s.toList, IsStored c

instance (s : String) : Decidable (IsStoredName s) :=
  List.decidableBAll (fun c : Char => c.toNat < 128 ∧ ¬ c.isUpper) s.toList

theorem isStoredName_snakeCase (hupper : o.upperCase = false) {s : String}
    (hs : IsAscii s.toList) : IsStoredName (snakeCase o s) := by
  rw [IsStoredName, snakeCase, String.toList_ofList]
  exact isStored_of_mem_snakeChars hupper hs

theorem snakeCase_of_isStoredName (hupper : o.upperCase = false)
    (hdigits : o.underscoreBeforeDigits = false) {s : String} (hs : IsStoredName s) :
    snakeCase o s = s := by
  rw [snakeCase, snakeChars_of_isStored hupper hdigits hs, String.ofList_toList]

/-! ### The spelling of the application -/

theorem camelAfter_of_notMem {prev : Char} (hprev : prev ≠ '_') (hs : '_' ∉ s) :
    camelAfter prev s = s := by
  induction s generalizing prev with
  | nil => rfl
  | cons c s ih =>
    rw [List.mem_cons, not_or] at hs
    obtain ⟨hc, hs⟩ := hs
    rw [camelAfter_cons_of_ne (Ne.symm hc) hprev, ih (Ne.symm hc) hs]

/-- What an underscore raised needs not be raised again. -/
theorem camelAfter_underscore (hs : IsAscii s) :
    camelAfter '_' (camelAfter '_' s) = camelAfter '_' s := by
  induction s with
  | nil => rfl
  | cons c s ih =>
    obtain ⟨hc, hrest⟩ := isAscii_cons.1 hs
    by_cases hu : c = '_'
    · rw [camelAfter, if_pos hu, List.nil_append, hu]
      exact ih hrest
    · have hraised : c.toUpper ≠ '_' ∧ upper c.toUpper = [c.toUpper] :=
        forall_ascii (P := fun c => c ≠ '_' → c.toUpper ≠ '_' ∧ upper c.toUpper = [c.toUpper])
          (by decide +kernel) hc hu
      have hcut : camelAfter '_' (c :: s) = c.toUpper :: camelAfter c s := by
        rw [camelAfter, if_neg hu, if_pos rfl, upper_of_isAscii hc, List.singleton_append]
      rw [hcut, camelAfter, if_neg hraised.1, if_pos rfl, hraised.2, List.singleton_append,
        camelAfter_of_notMem hraised.1 (underscore_notMem_camelAfter hrest)]

theorem raise_raise (hs : IsAscii s) : raise (raise s) = raise s := by
  cases s with
  | nil => rfl
  | cons c s =>
    obtain ⟨hc, hrest⟩ := isAscii_cons.1 hs
    rw [raise, raise]
    by_cases hu : c = '_'
    · rw [hu, camelAfter_underscore hrest]
    · rw [camelAfter_of_notMem hu (underscore_notMem_camelAfter hrest)]

/-- A name that is in the spelling of the application passes. -/
theorem camelCase_camelCase (hupper : o.upperCase = false) {s : String} (hs : IsAscii s.toList) :
    camelCase o (camelCase o s) = camelCase o s := by
  have hcamel (r : List Char) : camelChars o r = raise r := by
    rw [camelChars, hupper, Bool.false_and, if_neg Bool.false_ne_true]
  rw [camelCase, camelCase, String.toList_ofList, hcamel, hcamel, raise_raise hs]

end SqlTree.Naming
