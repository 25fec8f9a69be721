import Mathlib.Data.List.Chain
import SqlTree.Naming

/-!
# Naming — there and back

An application name is made of ASCII letters and digits, does not begin with a capital, and has no
two capitals next to each other unless the options tell them apart (`IsApplicationName`).

The scan of `snakeAfter` marks a character by an underscore, and the scan of `camelAfter` raises
what follows an underscore.  A marked capital is lowered and raised again; a marked digit has no
case.  Nothing else is changed by either scan, and the second one undoes the first whatever the
options mark (`camelAfter_snakeAfter`).

A name in capitals has no lower-case letter, and lowering it gives back the name before the capitals
(`lowerText_upperText`).
-/

namespace SqlTree.Naming
open Text

/-- A name as an application spells it. -/
structure IsApplicationName (o : NamingOptions) (s : String) : Prop where
  alphanumeric : ∀ c ∈ s.toList, c.isAlphanum
  start : ∀ c ∈ s.toList.head?, ¬ c.isUpper
  capitals : o.underscoreBetweenUppercaseLetters = false →
    s.toList.IsChain fun a b => ¬ (a.isUpper ∧ b.isUpper)

instance (o : NamingOptions) (s : String) : Decidable (IsApplicationName o s) :=
  decidable_of_iff
    (s.toList.all Char.isAlphanum ∧ s.toList.head?.any Char.isUpper = false ∧
      (o.underscoreBetweenUppercaseLetters = false →
        s.toList.IsChain fun a b => ¬ (a.isUpper ∧ b.isUpper)))
    ⟨fun h => ⟨List.all_eq_true.1 h.1, by simpa [Option.any_eq_false] using h.2.1, h.2.2⟩,
      fun h => ⟨List.all_eq_true.2 h.alphanumeric, by simpa [Option.any_eq_false] using h.start,
        h.capitals⟩⟩

/-! ### ASCII -/

/-- What holds of every ASCII character, checked one by one. -/
theorem forall_ascii {P : Char → Prop} (h : ∀ n < 128, P (Char.ofNat n)) {c : Char}
    (hc : c.toNat < 128) : P c := by
  have hc' := h c.toNat hc
  rwa [Char.ofNat_toNat] at hc'

theorem toNat_lt_of_isAlphanum {c : Char} (h : c.isAlphanum) : c.toNat < 128 := by
  delta Char.isAlphanum Char.isAlpha Char.isUpper Char.isLower Char.isDigit at h
  simp [UInt32.le_iff_toNat_le, ← Char.toNat_val] at h ⊢
  omega

/-- What holds of every ASCII character holds of every letter and digit. -/
theorem forall_alphanum {P : Char → Prop} (h : ∀ n < 128, P (Char.ofNat n)) {c : Char}
    (hc : c.isAlphanum) : P c :=
  forall_ascii h (toNat_lt_of_isAlphanum hc)

theorem isUpper_eq {c : Char} (hc : c.toNat < 128) : isUpper c = c.isUpper :=
  forall_ascii (P := fun c => isUpper c = c.isUpper) (by decide +kernel) hc

/-- A capital that is lowered can be raised again. -/
theorem lower_of_isUpper {c : Char} (hc : c.isAlphanum) (h : c.isUpper) :
    ∃ l, lower c = [l] ∧ l ≠ '_' ∧ upper l = [c] :=
  ⟨c.toLower,
    forall_alphanum (P := fun c =>
        c.isUpper → lower c = [c.toLower] ∧ c.toLower ≠ '_' ∧ upper c.toLower = [c])
      (by decide +kernel) hc h⟩

theorem lower_of_not_isUpper {c : Char} (hc : c.isAlphanum) (h : ¬ c.isUpper) : lower c = [c] :=
  forall_alphanum (P := fun c => ¬ c.isUpper → lower c = [c]) (by decide +kernel) hc h

theorem upper_of_isDigit {c : Char} (hc : c.isAlphanum) (h : c.isDigit) : upper c = [c] :=
  forall_alphanum (P := fun c => c.isDigit → upper c = [c]) (by decide +kernel) hc h

theorem ne_underscore {c : Char} (hc : c.isAlphanum) : c ≠ '_' := by
  rintro rfl
  revert hc
  decide

/-! ### The two scans -/

theorem camelAfter_cons_of_ne {q c : Char} (hc : c ≠ '_') (hq : q ≠ '_') (cs : List Char) :
    camelAfter q (c :: cs) = c :: camelAfter c cs := by
  rw [camelAfter, if_neg hc, if_neg hq, List.singleton_append]

theorem camelAfter_mark {c : Char} (hc : c ≠ '_') (q : Char) (cs : List Char) :
    camelAfter q ('_' :: c :: cs) = upper c ++ camelAfter c cs := by
  rw [camelAfter, camelAfter, if_pos rfl, if_neg hc, if_pos rfl, List.nil_append]

variable {o : NamingOptions}

/-- The second scan undoes the first, whatever character it finds before what the first has
written, as long as it is no mark. -/
theorem camelAfter_snakeAfter {prev q : Char} {cs : List Char}
    (hcs : ∀ c ∈ prev :: cs, c.isAlphanum) (hq : q ≠ '_')
    (hcap : o.underscoreBetweenUppercaseLetters = false →
      (prev :: cs).IsChain fun a b => ¬ (a.isUpper ∧ b.isUpper)) :
    camelAfter q (snakeAfter o prev cs) = cs := by
  induction cs generalizing prev q with
  | nil => rfl
  | cons c cs ih =>
    have hprev : prev.isAlphanum := hcs prev List.mem_cons_self
    have hc : c.isAlphanum := hcs c (by simp)
    have ih (l : Char) (hl : l ≠ '_') : camelAfter l (snakeAfter o c cs) = cs :=
      ih (fun d hd => hcs d (List.mem_cons_of_mem prev hd)) hl fun h => (hcap h).tail
    rw [snakeAfter]
    split
    next hdigit =>
      simp only [Bool.and_eq_true] at hdigit
      rw [List.cons_append, List.singleton_append, camelAfter_mark (ne_underscore hc),
        upper_of_isDigit hc hdigit.1.2, ih c (ne_underscore hc), List.singleton_append]
    next =>
      rw [isUpper_eq (toNat_lt_of_isAlphanum hc), isUpper_eq (toNat_lt_of_isAlphanum hprev)]
      split
      next hupper =>
        obtain ⟨l, hl, hne, hback⟩ := lower_of_isUpper hc hupper
        -- a capital right behind another one is marked as well, or does not occur
        have hmark : o.underscoreBetweenUppercaseLetters || !prev.isUpper := by
          cases hb : o.underscoreBetweenUppercaseLetters with
          | true => rfl
          | false =>
            have hpair := List.isChain_cons_cons.1 (hcap hb)
            simpa [hupper] using hpair.1
        rw [if_pos hmark, hl, List.cons_append, List.singleton_append, camelAfter_mark hne, hback,
          ih l hne, List.singleton_append]
      next =>
        rw [List.singleton_append, camelAfter_cons_of_ne (ne_underscore hc) hq,
          ih c (ne_underscore hc)]

/-! ### Capitals -/

/-- What a database name is made of before it is put into capitals. -/
def IsStored (c : Char) : Prop := c.toNat < 128 ∧ ¬ c.isUpper

theorem isStored_underscore : IsStored '_' := by
  constructor <;> decide

theorem isStored_toLower {c : Char} (hc : c.toNat < 128) : IsStored c.toLower :=
  forall_ascii (P := fun c => c.toLower.toNat < 128 ∧ ¬ c.toLower.isUpper) (by decide +kernel) hc

theorem isStored_of_mem_lower {c : Char} (hc : c.toNat < 128) : ∀ d ∈ lower c, IsStored d := by
  rw [lower, if_pos hc]
  exact List.forall_mem_singleton.2 (isStored_toLower hc)

theorem isStored_of_isDigit {c : Char} (hc : c.toNat < 128) (h : c.isDigit) : IsStored c :=
  ⟨hc, forall_ascii (P := fun c => c.isDigit → ¬ c.isUpper) (by decide +kernel) hc h⟩

/-- The first scan writes stored characters only. -/
theorem isStored_of_mem_snakeAfter {prev : Char} {cs : List Char} (hcs : ∀ c ∈ cs, c.toNat < 128) :
    ∀ d ∈ snakeAfter o prev cs, IsStored d := by
  induction cs generalizing prev with
  | nil => simp [snakeAfter]
  | cons c cs ih =>
    obtain ⟨hc, hcs⟩ := List.forall_mem_cons.1 hcs
    rw [snakeAfter, List.forall_mem_append]
    refine ⟨?_, ih hcs⟩
    split
    next hdigit =>
      simp only [Bool.and_eq_true] at hdigit
      exact List.forall_mem_cons.2 ⟨isStored_underscore,
        List.forall_mem_singleton.2 (isStored_of_isDigit hc hdigit.1.2)⟩
    next =>
      split
      next =>
        split
        next => exact List.forall_mem_cons.2 ⟨isStored_underscore, isStored_of_mem_lower hc⟩
        next => exact isStored_of_mem_lower hc
      next hupper =>
        rw [isUpper_eq hc] at hupper
        exact List.forall_mem_singleton.2 ⟨hc, hupper⟩

/-- A stored character is raised to one that is no lower-case letter, and comes back lowered. -/
theorem upper_of_isStored {c : Char} (h : IsStored c) :
    ∃ u, upper c = [u] ∧ isLower u = false ∧ u ≠ '\u03a3' ∧ lower u = [c] :=
  ⟨c.toUpper,
    forall_ascii (P := fun c => ¬ c.isUpper → upper c = [c.toUpper] ∧
        isLower c.toUpper = false ∧ c.toUpper ≠ '\u03a3' ∧ lower c.toUpper = [c])
      (by decide +kernel) h.1 h.2⟩

theorem any_isLower_upperText {t : List Char} (ht : ∀ c ∈ t, IsStored c) :
    (upperText t).any isLower = false := by
  rw [upperText, List.any_flatMap, List.any_eq_false]
  intro c hc
  obtain ⟨u, hu, hlow, -⟩ := upper_of_isStored (ht c hc)
  simp [hu, hlow]

theorem lowerAfter_upperText {t : List Char} (ht : ∀ c ∈ t, IsStored c) (before : List Char) :
    lowerAfter before (upperText t) = t := by
  induction t generalizing before with
  | nil => rfl
  | cons c t ih =>
    obtain ⟨hc, ht⟩ := List.forall_mem_cons.1 ht
    obtain ⟨u, hu, -, hsigma, hback⟩ := upper_of_isStored hc
    rw [upperText, List.flatMap_cons, hu, List.singleton_append, lowerAfter, if_neg hsigma, hback,
      List.singleton_append]
    exact congrArg (c :: ·) (ih ht (u :: before))

/-- A text in capitals that a database stores is lowered as a whole. -/
theorem lowerText_upperText {t : List Char} (ht : ∀ c ∈ t, IsStored c) :
    lowerText (upperText t) = t :=
  lowerAfter_upperText ht []

/-! ### Names -/

/-- The scan back finds the name that was put into capitals, or left as it was. -/
theorem camelChars_capitals {t : List Char} (ht : ∀ c ∈ t, IsStored c) :
    camelChars o (if o.upperCase then upperText t else t) = raise t := by
  cases hu : o.upperCase with
  | false => simp [camelChars, hu]
  | true => simp [camelChars, hu, any_isLower_upperText ht, lowerText_upperText ht]

theorem camelChars_snakeChars {cs : List Char} (h : ∀ c ∈ cs, c.isAlphanum)
    (hstart : ∀ c ∈ cs.head?, ¬ c.isUpper)
    (hcap : o.underscoreBetweenUppercaseLetters = false →
      cs.IsChain fun a b => ¬ (a.isUpper ∧ b.isUpper)) :
    camelChars o (snakeChars o cs) = cs := by
  cases cs with
  | nil => cases hu : o.upperCase <;> simp [camelChars, snakeChars, raise, lowerText, lowerAfter]
  | cons c cs =>
    have hc : c.isAlphanum := h c List.mem_cons_self
    have hlow : ¬ c.isUpper := hstart c rfl
    have hstored : ∀ d ∈ c :: snakeAfter o c cs, IsStored d :=
      List.forall_mem_cons.2 ⟨⟨toNat_lt_of_isAlphanum hc, hlow⟩,
        isStored_of_mem_snakeAfter fun d hd =>
          toNat_lt_of_isAlphanum (h d (List.mem_cons_of_mem c hd))⟩
    rw [snakeChars, lower_of_not_isUpper hc hlow]
    refine (camelChars_capitals hstored).trans ?_
    rw [raise, camelAfter_snakeAfter h (ne_underscore hc) hcap]

/-- The name of an application comes back from the database as it was. -/
theorem camelCase_snakeCase {s : String} (h : IsApplicationName o s) :
    camelCase o (snakeCase o s) = s := by
  rw [camelCase, snakeCase, String.toList_ofList,
    camelChars_snakeChars h.alphanumeric h.start h.capitals, String.ofList_toList]

/-- Capitals next to each other do not come back where they are not told apart. -/
example : camelCase {} (snakeCase {} "userID") = "userId" ∧ ¬ IsApplicationName {} "userID" := by
  decide +kernel

end SqlTree.Naming
