import SqlTree.Proofs.Naming.RoundTrip

/-!
# Naming — letters

Both conversions keep the letters and digits of an ASCII name, each in its turn, and change nothing
but case and underscores.  `Marked` says so for one text and another: the second one is the first
one with underscores put in between and with letters in either case.  The scan of `snakeAfter` marks
the text it is given (`marked_snakeAfter`), and the scan of `camelAfter` gives a text of which its
own is a marked one (`camelAfter_marked`).

**Letters** (`letters_respelled`).  So either spelling of a name has the letters of the name.  The
database's spelling has every underscore of the name, and the application's spelling has none,
except in front.
-/

namespace SqlTree.Naming
open Text

/-- A text of ASCII characters. -/
def IsAscii (s : List Char) : Prop := ∀ c ∈ s, c.toNat < 128

instance (s : List Char) : Decidable (IsAscii s) :=
  List.decidableBAll (fun c : Char => c.toNat < 128) s

theorem isAscii_cons {c : Char} {s : List Char} : IsAscii (c :: s) ↔ c.toNat < 128 ∧ IsAscii s :=
  List.forall_mem_cons

/-- What is left of a text without its underscores and in lower case. -/
def letters (s : List Char) : List Char := lowerText (s.filter (· ≠ '_'))

/-! ### Case -/

theorem lower_of_isAscii {c : Char} (hc : c.toNat < 128) : lower c = [c.toLower] := if_pos hc

theorem upper_of_isAscii {c : Char} (hc : c.toNat < 128) : upper c = [c.toUpper] := if_pos hc

theorem toLower_toLower {c : Char} (hc : c.toNat < 128) : c.toLower.toLower = c.toLower :=
  forall_ascii (P := fun c => c.toLower.toLower = c.toLower) (by decide +kernel) hc

theorem toLower_toUpper {c : Char} (hc : c.toNat < 128) : c.toUpper.toLower = c.toLower :=
  forall_ascii (P := fun c => c.toUpper.toLower = c.toLower) (by decide +kernel) hc

/-- No other character is lowered to ASCII. -/
theorem toNat_lt_of_toLower {c : Char} (h : c.toLower.toNat < 128) : c.toNat < 128 := by
  unfold Char.toLower at h
  split at h
  next hc => exact Nat.lt_of_le_of_lt (show c.toNat ≤ 90 from hc.2) (by decide)
  next => exact h

theorem toLower_eq_underscore {c : Char} : c.toLower = '_' ↔ c = '_' := by
  constructor
  · intro h
    have hc : c.toNat < 128 := toNat_lt_of_toLower (h ▸ by decide)
    exact forall_ascii (P := fun c => c.toLower = '_' → c = '_') (by decide +kernel) hc h
  · rintro rfl
    rfl

theorem toLower_lt {c : Char} (hc : c.toNat < 128) : c.toLower.toNat < 128 :=
  forall_ascii (P := fun c => c.toLower.toNat < 128) (by decide +kernel) hc

theorem lowerAfter_of_isAscii {s : List Char} (hs : IsAscii s) (before : List Char) :
    lowerAfter before s = s.map Char.toLower := by
  induction s generalizing before with
  | nil => rfl
  | cons c s ih =>
    obtain ⟨hc, hs⟩ := isAscii_cons.1 hs
    have hsigma : c ≠ '\u03a3' := by
      rintro rfl
      exact absurd hc (by decide)
    rw [lowerAfter, if_neg hsigma, lower_of_isAscii hc, ih hs, List.map_cons,
      List.singleton_append]

theorem lowerText_of_isAscii {s : List Char} (hs : IsAscii s) : lowerText s = s.map Char.toLower :=
  lowerAfter_of_isAscii hs []

theorem upperText_of_isAscii {s : List Char} (hs : IsAscii s) :
    upperText s = s.map Char.toUpper := by
  rw [upperText, List.map_eq_flatMap]
  exact List.flatMap_congr fun c hc => upper_of_isAscii (hs c hc)

/-! ### Marked texts -/

/-- `t` is `s` with underscores put in between, and with letters in either case. -/
inductive Marked : (s t : List Char) → Prop
  | nil : Marked [] []
  | keep {c d : Char} {s t : List Char} (hcase : c.toLower = d.toLower) (h : Marked s t) :
      Marked (c :: s) (d :: t)
  | mark {s t : List Char} (h : Marked s t) : Marked s ('_' :: t)

namespace Marked
variable {s t : List Char}

theorem refl (s : List Char) : Marked s s := by
  induction s with
  | nil => exact .nil
  | cons c s ih => exact .keep rfl ih

/-- The case of the letters is of no account. -/
theorem of_map_toLower (h : Marked s t) {t' : List Char}
    (hcase : t.map Char.toLower = t'.map Char.toLower) : Marked s t' := by
  induction h generalizing t' with
  | nil =>
    rw [List.map_eq_nil_iff.1 hcase.symm]
    exact .nil
  | keep hcd _ ih =>
    obtain ⟨e, t', rfl, he, hrest⟩ := List.map_eq_cons_iff.1 hcase.symm
    exact .keep (hcd.trans he.symm) (ih hrest.symm)
  | mark _ ih =>
    obtain ⟨e, t', rfl, he, hrest⟩ := List.map_eq_cons_iff.1 hcase.symm
    obtain rfl := toLower_eq_underscore.1 he
    exact .mark (ih hrest.symm)

theorem isAscii_iff (h : Marked s t) : IsAscii s ↔ IsAscii t := by
  induction h with
  | nil => rfl
  | @keep c d s t hcase _ ih =>
    have hascii : c.toNat < 128 ↔ d.toNat < 128 := by
      constructor <;> intro hlt <;> refine toNat_lt_of_toLower ?_
      · exact hcase ▸ toLower_lt hlt
      · exact hcase ▸ toLower_lt hlt
    rw [isAscii_cons, isAscii_cons, hascii, ih]
  | mark _ ih => exact ih.trans (isAscii_cons.trans (and_iff_right (by decide))).symm

/-- Letters are neither lost nor added, and they keep their order. -/
theorem map_filter_eq (h : Marked s t) :
    (s.filter (· ≠ '_')).map Char.toLower = (t.filter (· ≠ '_')).map Char.toLower := by
  induction h with
  | nil => rfl
  | @keep c d s t hcase _ ih =>
    have hmark : c = '_' ↔ d = '_' := by
      rw [← toLower_eq_underscore, hcase, toLower_eq_underscore]
    by_cases hc : c = '_'
    · simpa [hc, hmark.1 hc] using ih
    · simpa [hc, mt hmark.2 hc, hcase] using ih
  | mark _ ih => simpa using ih

theorem letters_eq (h : Marked s t) (hs : IsAscii s) : letters s = letters t := by
  have hfilter {r : List Char} (hr : IsAscii r) :
      letters r = (r.filter (· ≠ '_')).map Char.toLower :=
    lowerText_of_isAscii fun c hc => hr c (List.mem_of_mem_filter hc)
  rw [hfilter hs, hfilter (h.isAscii_iff.1 hs), h.map_filter_eq]

/-- No underscore is taken away. -/
theorem count_le (h : Marked s t) : s.count '_' ≤ t.count '_' := by
  induction h with
  | nil => exact Nat.le_refl _
  | @keep c d s t hcase _ ih =>
    have hmark : c = '_' ↔ d = '_' := by
      rw [← toLower_eq_underscore, hcase, toLower_eq_underscore]
    by_cases hc : c = '_'
    · simpa [hc, hmark.1 hc] using ih
    · simpa [hc, mt hmark.2 hc] using ih
  | mark _ ih =>
    rw [List.count_cons_self]
    exact Nat.le_succ_of_le ih

end Marked

/-! ### The two scans -/

variable {o : NamingOptions} {s : List Char}

/-- The scan for the database puts underscores in, and no more. -/
theorem marked_snakeAfter {prev : Char} (hs : IsAscii s) : Marked s (snakeAfter o prev s) := by
  induction s generalizing prev with
  | nil => exact .nil
  | cons c s ih =>
    obtain ⟨hc, hs⟩ := isAscii_cons.1 hs
    have hlower : c.toLower = c.toLower.toLower := (toLower_toLower hc).symm
    rw [snakeAfter, lower_of_isAscii hc]
    split
    next => exact .mark (.keep rfl (ih hs))
    next =>
      split
      next =>
        split
        next => exact .mark (.keep hlower (ih hs))
        next => exact .keep hlower (ih hs)
      next => exact .keep rfl (ih hs)

/-- The scan for the application takes underscores away, and no more. -/
theorem camelAfter_marked {prev : Char} (hs : IsAscii s) : Marked (camelAfter prev s) s := by
  induction s generalizing prev with
  | nil => exact .nil
  | cons c s ih =>
    obtain ⟨hc, hrest⟩ := isAscii_cons.1 hs
    rw [camelAfter, upper_of_isAscii hc]
    split
    next hu =>
      subst hu
      exact .mark (ih hrest)
    next =>
      split
      next => exact .keep (toLower_toUpper hc) (ih hrest)
      next => exact .keep rfl (ih hrest)

/-- No underscore is left. -/
theorem underscore_notMem_camelAfter {prev : Char} (hs : IsAscii s) : '_' ∉ camelAfter prev s := by
  induction s generalizing prev with
  | nil => exact List.not_mem_nil
  | cons c s ih =>
    obtain ⟨hc, hrest⟩ := isAscii_cons.1 hs
    rw [camelAfter, upper_of_isAscii hc]
    split
    next => exact ih hrest
    next hne =>
      split
      next =>
        have hupper : '_' ≠ c.toUpper := fun h =>
          hne (forall_ascii (P := fun c => '_' = c.toUpper → c = '_') (by decide +kernel) hc h)
        exact List.not_mem_cons_of_ne_of_not_mem hupper (ih hrest)
      next => exact List.not_mem_cons_of_ne_of_not_mem (Ne.symm hne) (ih hrest)

/-! ### Names -/

theorem marked_snakeChars (hs : IsAscii s) : Marked s (snakeChars o s) := by
  cases s with
  | nil => exact .nil
  | cons c s =>
    obtain ⟨hc, hrest⟩ := isAscii_cons.1 hs
    have hlow : Marked (c :: s) (lower c ++ snakeAfter o c s) := by
      rw [lower_of_isAscii hc]
      exact .keep (toLower_toLower hc).symm (marked_snakeAfter hrest)
    rw [snakeChars]
    split
    next =>
      have hascii := hlow.isAscii_iff.1 hs
      apply hlow.of_map_toLower
      rw [upperText_of_isAscii hascii, List.map_map]
      exact (List.map_congr_left fun d hd => toLower_toUpper (hascii d hd)).symm
    next => exact hlow

theorem raise_marked (hs : IsAscii s) : Marked (raise s) s := by
  cases s with
  | nil => exact .nil
  | cons c s => exact .keep rfl (camelAfter_marked (isAscii_cons.1 hs).2)

/-- The characters that are scanned for the application: the name, lowered or as it is. -/
theorem map_toLower_lowered (hs : IsAscii s) (b : Bool) :
    (if b then lowerText s else s).map Char.toLower = s.map Char.toLower := by
  cases b with
  | false => rfl
  | true =>
    rw [if_pos rfl, lowerText_of_isAscii hs, List.map_map]
    exact List.map_congr_left fun c hc => toLower_toLower (hs c hc)

theorem isAscii_lowered (hs : IsAscii s) (b : Bool) : IsAscii (if b then lowerText s else s) :=
  ((Marked.refl s).of_map_toLower (map_toLower_lowered hs b).symm).isAscii_iff.1 hs

theorem camelChars_marked (hs : IsAscii s) : Marked (camelChars o s) s :=
  (raise_marked (isAscii_lowered hs _)).of_map_toLower (map_toLower_lowered hs _)

theorem underscore_notMem_tail_raise (hs : IsAscii s) : '_' ∉ (raise s).tail := by
  cases s with
  | nil => exact List.not_mem_nil
  | cons c s => exact underscore_notMem_camelAfter (isAscii_cons.1 hs).2

theorem underscore_notMem_tail_camelChars (hs : IsAscii s) : '_' ∉ (camelChars o s).tail :=
  underscore_notMem_tail_raise (isAscii_lowered hs _)

/-- **Letters.**  Whatever the options, an ASCII name has the same letters and digits in either
spelling, in the same order: the spelling of the database is the name with underscores put in, and
the name is the spelling of the application with underscores put in.  The first has every underscore
of the name, and the second has none but one in front. -/
theorem letters_respelled (o : NamingOptions) {s : String} (hs : IsAscii s.toList) :
    letters (snakeCase o s).toList = letters s.toList ∧
    letters (camelCase o s).toList = letters s.toList ∧
    s.toList.count '_' ≤ (snakeCase o s).toList.count '_' ∧
    '_' ∉ (camelCase o s).toList.tail ∧
    Marked s.toList (snakeCase o s).toList ∧ Marked (camelCase o s).toList s.toList := by
  rw [snakeCase, camelCase, String.toList_ofList, String.toList_ofList]
  have hsnake : Marked s.toList (snakeChars o s.toList) := marked_snakeChars hs
  have hcamel : Marked (camelChars o s.toList) s.toList := camelChars_marked hs
  exact ⟨(hsnake.letters_eq hs).symm, hcamel.letters_eq (hcamel.isAscii_iff.2 hs), hsnake.count_le,
    underscore_notMem_tail_camelChars hs, hsnake, hcamel⟩

/-- Underscores at either end and in a row, and a name in capitals. -/
theorem letters_unusualNames :
    IsAscii "__fooBAR2_".toList ∧
      letters "__foo_b_a_r2_".toList = letters "__fooBAR2_".toList ∧
      '_' ∉ (camelCase { upperCase := true } "_ID__OF_1_").toList.tail := by
  have hname : IsAscii "__fooBAR2_".toList := by decide
  have hcapitals : IsAscii "_ID__OF_1_".toList := by decide
  have hsnake : snakeCase { underscoreBetweenUppercaseLetters := true } "__fooBAR2_" =
      "__foo_b_a_r2_" := by decide +kernel
  refine ⟨hname, ?_, (letters_respelled _ hcapitals).2.2.2.1⟩
  have h := (letters_respelled { underscoreBetweenUppercaseLetters := true } hname).1
  rwa [hsnake] at h

end SqlTree.Naming
