import Mathlib.Data.List.Chain
import SqlTree.Proofs.Reading.Token
import SqlTree.Proofs.Statement.Marks

/-!
# Reading — the text outside of names

`outside?` finds the characters of a text that do not belong to a quoted name, without knowing the
language otherwise.  `outside` lists those of pieces.  The two agree where no two names stand next
to each other, as a quote that ends a name and one that begins another would be read as one written
twice (`outside?_layout`).  `Seam` forbids that, and the pairs of characters that begin a comment.
-/

namespace SqlTree

/-! ### The text outside of names -/

/-- The characters of a text outside of quoted names, with a mark for each name.  There are none
where a name is not closed. -/
def outside? (q : Char) : List Char → Option (List (Option Char))
  | [] => some []
  | c :: cs =>
    if c = q then
      match _h : closeName? q cs with
      | none => none
      | some (_, rest) => (outside? q rest).map (none :: ·)
    else (outside? q cs).map (some c :: ·)
termination_by cs => cs.length
decreasing_by
  · exact Nat.lt_succ_of_lt (length_of_closeName? _h)
  · exact Nat.lt_succ_self _

section
variable {q : Char} {cs rest : List Char}

theorem outside?_nil : outside? q [] = some [] := by rw [outside?]

theorem outside?_closeName {name : List Char} (h : closeName? q cs = some (name, rest)) :
    outside? q (q :: cs) = (outside? q rest).map (none :: ·) := by
  rw [outside?, if_pos rfl]
  split
  · next hnone => rw [h] at hnone; cases hnone
  · next hsome =>
      rw [h] at hsome
      obtain ⟨rfl, rfl⟩ := Prod.mk.inj (Option.some.inj hsome)
      rfl

/-- A text without quotes is outside of names. -/
theorem outside?_append (h : q ∉ cs) :
    outside? q (cs ++ rest) = (outside? q rest).map (cs.map some ++ ·) := by
  induction cs with
  | nil => simp
  | cons c cs ih =>
      rw [List.mem_cons, not_or] at h
      rw [List.cons_append, outside?, if_neg (Ne.symm h.1), ih h.2]
      simp [Function.comp_def]

theorem outside?_quoted {d : Dialect} (name : String) (h : ∀ c ∈ rest.head?, c ≠ d.quote) :
    outside? d.quote ((d.quoted name).toList ++ rest) =
      (outside? d.quote rest).map (none :: ·) := by
  have htext : (d.quoted name).toList ++ rest =
      d.quote :: (doubled d.quote name.toList ++ d.quote :: rest) := by
    simp [Dialect.quoted, doubled]
  rw [htext, outside?_closeName (closeName?_doubled name.toList h)]

/-- Where no name comes first, no quote does. -/
theorem head_ne_of_outside? {xs : List (Option Char)} (h : outside? q cs = some xs)
    (hx : none ∉ xs.head?) : ∀ c ∈ cs.head?, c ≠ q := by
  cases cs with
  | nil => nofun
  | cons c cs =>
      intro _ hc
      obtain rfl := Option.some.inj hc
      rintro rfl
      rw [outside?, if_pos rfl] at h
      split at h
      · cases h
      · obtain ⟨ys, -, rfl⟩ := Option.map_eq_some_iff.mp h
        exact hx rfl

end

/-- Whether two neighbours outside of names, or names, may be neighbours: they neither begin a
comment nor are they two names, which would be read as one. -/
def Seam (x y : Option Char) : Prop :=
  ¬ (x = some '-' ∧ y = some '-') ∧ ¬ (x = some '/' ∧ y = some '*') ∧ ¬ (x = none ∧ y = none)

instance : DecidableRel Seam := fun _ _ => inferInstanceAs (Decidable (_ ∧ _ ∧ _))

theorem Seam.of_left {x y : Option Char} (h : x ≠ some '-' ∧ x ≠ some '/' ∧ x ≠ none) : Seam x y :=
  ⟨fun e => h.1 e.1, fun e => h.2.1 e.1, fun e => h.2.2 e.1⟩

theorem Seam.of_right {x y : Option Char} (h : y ≠ some '-' ∧ y ≠ some '*' ∧ y ≠ none) : Seam x y :=
  ⟨fun e => h.1 e.2, fun e => h.2.1 e.2, fun e => h.2.2 e.2⟩

/-- The characters of pieces outside of names, with a mark for each name, placeholders being counted
from `k`. -/
def outside (d : Dialect) : Nat → List Piece → List (Option Char)
  | _, [] => []
  | k, .quoted _ :: ps => none :: outside d k ps
  | k, .placeholder _ :: ps => (d.placeholder k).toList.map some ++ outside d (k + 1) ps
  | k, .text s :: ps => s.toList.map some ++ outside d k ps
  | k, .offence _ :: ps => outside d k ps

section
variable {d : Dialect} {ps qs : List Piece}

theorem outside_append (k : Nat) (ps qs : List Piece) :
    outside d k (ps ++ qs) = outside d k ps ++ outside d (k + (bindings ps).length) qs := by
  induction ps generalizing k with
  | nil => rfl
  | cons p ps ih =>
      cases p with
      | quoted _ | text _ | offence _ => simp [outside, ih]
      | placeholder _ => simp [outside, ih (k + 1), Nat.add_assoc, Nat.add_comm 1]

/-- Pieces that meet in seams are read back one by one. -/
theorem outside?_layout {k : Nat} (hchain : (outside d k ps).IsChain Seam)
    (hquote : some d.quote ∉ outside d k ps) :
    outside? d.quote (layout d k ps).toList = some (outside d k ps) := by
  induction ps generalizing k with
  | nil => exact outside?_nil
  | cons p ps ih =>
      cases p with
      | quoted name =>
          rw [outside, List.isChain_cons] at hchain
          have hps := ih hchain.2 fun h => hquote (List.mem_cons_of_mem _ h)
          have hhead : none ∉ (outside d k ps).head? := fun h => (hchain.1 none h).2.2 ⟨rfl, rfl⟩
          rw [layout, String.toList_append, outside?_quoted name (head_ne_of_outside? hps hhead),
            hps]
          rfl
      | placeholder v =>
          rw [outside, List.isChain_append] at hchain
          rw [outside, List.mem_append, not_or] at hquote
          have hno : d.quote ∉ (d.placeholder k).toList := by simpa using hquote.1
          rw [layout, String.toList_append, outside?_append hno, ih hchain.2.1 hquote.2]
          rfl
      | text s =>
          rw [outside, List.isChain_append] at hchain
          rw [outside, List.mem_append, not_or] at hquote
          have hno : d.quote ∉ s.toList := by simpa using hquote.1
          rw [layout, String.toList_append, outside?_append hno, ih hchain.2.1 hquote.2]
          rfl
      | offence o => exact ih hchain hquote

end

theorem count_none_outside (d : Dialect) (k : Nat) (ps : List Piece) :
    (outside d k ps).count none = (names ps).length := by
  have htext (cs : List Char) : (cs.map some).count none = 0 :=
    List.count_eq_zero.mpr (by simp)
  induction ps generalizing k with
  | nil => rfl
  | cons p ps ih =>
      cases p with
      | quoted name =>
          rw [outside, List.count_cons_self, ih k]
          rfl
      | placeholder _ =>
          rw [outside, List.count_append, htext, Nat.zero_add, ih (k + 1)]
          rfl
      | text s =>
          rw [outside, List.count_append, htext, Nat.zero_add, ih k]
          rfl
      | offence o => exact ih k

end SqlTree
