import SqlTree.Proofs.Reading.Text

/-!
# Reading — texts one after another

A text that falls into whole lexemes does so in front of a blank or a closing parenthesis as well,
and the placeholders that follow it are counted on from its own (`lexes_of_lexFrom`).  `lexAll` goes
through several texts in this way, one after another.
-/

namespace SqlTree

namespace Lexeme

def isParameter : Lexeme → Bool
  | parameter _ => true
  | _ => false

/-- How many placeholders there are. -/
def parameterCount (ts : List Lexeme) : Nat := ts.countP isParameter

end Lexeme

open Lexeme

/-- The lexemes of texts one after another, placeholders being counted on from each to the next. -/
def lexAll (d : Dialect) : Nat → List String → Option (List (List Lexeme))
  | _, [] => some []
  | k, s :: ss =>
    (lexFrom d k .between s.toList).bind fun ts =>
      (lexAll d (k + parameterCount ts) ss).map (ts :: ·)

/-- The placeholders that have been counted, but are not among the lexemes yet. -/
def Scan.pending : Scan → Nat
  | numeral _ => 1
  | _ => 0

section
variable {d : Dialect} {k k' : Nat} {s s' : Scan} {c : Char} {cs : List Char} {t : Lexeme}
  {ts us : List Lexeme}

theorem isParameter_of_ofText? {text : String} (h : Lexeme.ofText? text = some t) :
    t.isParameter = false := by
  unfold Lexeme.ofText? at h
  split_ifs at h
  case neg =>
    obtain ⟨op, -, rfl⟩ := Option.map_eq_some_iff.1 h
    rfl
  all_goals exact Option.some.inj h ▸ rfl

theorem pending_extend? (h : s.extend? d c = some s') : s'.pending = s.pending := by
  cases s with
  | between => cases h
  | name cs =>
      obtain rfl := Option.some.inj h
      split <;> rfl
  | closed cs | numeral cs | run b cs =>
      obtain ⟨-, h⟩ := Option.ite_none_right_eq_some.1 h
      exact Option.some.inj h ▸ rfl

theorem parameterCount_lexemes? (h : s.lexemes? = some ts) : parameterCount ts = s.pending := by
  cases s with
  | between | closed cs => exact Option.some.inj h ▸ rfl
  | name cs => cases h
  | numeral cs =>
      obtain ⟨-, h⟩ := Option.ite_none_left_eq_some.1 h
      exact Option.some.inj h ▸ rfl
  | run b cs =>
      obtain ⟨t, ht, rfl⟩ := Option.map_eq_some_iff.1 h
      simp [parameterCount, isParameter_of_ofText? ht, Scan.pending]

theorem parameterCount_begin? (h : begin? d k c = some (ts, k', s)) :
    k' = k + parameterCount ts + s.pending := by
  unfold begin? at h
  split_ifs at h <;> cases h <;> rfl

/-- Nothing whole goes on with a blank or a closing parenthesis. -/
theorem extend?_eq_none (h : s.lexemes? = some ts) (hend : EndsLexeme cs) :
    ∀ c ∈ cs.head?, s.extend? d c = none := by
  intro c hc
  cases s with
  | between => rfl
  | name cs => cases h
  | closed cs => exact if_neg (hend.ne_quote c hc)
  | numeral cs => exact if_neg (hend.not_isDigit c hc)
  | run b cs => exact if_neg (hend.not_inRun b c hc)

theorem lexFrom_append (h : lexFrom d k s cs = some ts) :
    ∃ k', k' + s.pending = k + parameterCount ts ∧ ∀ rest, EndsLexeme rest →
      lexFrom d k s (cs ++ rest) = (lexFrom d k' .between rest).map (ts ++ ·) := by
  induction cs generalizing k s ts with
  | nil =>
      refine ⟨k, by rw [parameterCount_lexemes? h], fun rest hrest => ?_⟩
      have h' : s.lexemes? = some ts := h
      rw [List.nil_append, lexFrom_end (extend?_eq_none h hrest), h']
      rfl
  | cons c cs ih =>
      rw [lexFrom] at h
      cases hs : s.extend? d c with
      | some s' =>
          rw [hs] at h
          obtain ⟨k', hk, hall⟩ := ih h
          refine ⟨k', pending_extend? hs ▸ hk, fun rest hrest => ?_⟩
          rw [List.cons_append, lexFrom_extend hs, hall rest hrest]
      | none =>
          rw [hs] at h
          obtain ⟨before, hbefore, h⟩ := Option.bind_eq_some_iff.1 h
          obtain ⟨⟨now, k₁, s'⟩, hnow, h⟩ := Option.bind_eq_some_iff.1 h
          obtain ⟨ts', hts, rfl⟩ := Option.map_eq_some_iff.1 h
          obtain ⟨k', hk, hall⟩ := ih hts
          refine ⟨k', ?_, fun rest hrest => ?_⟩
          · have hb := parameterCount_lexemes? hbefore
            have hn := parameterCount_begin? hnow
            simp only [parameterCount, List.countP_append] at *
            omega
          · have hstep : lexFrom d k s (c :: (cs ++ rest)) =
                (lexFrom d k₁ s' (cs ++ rest)).map (before ++ now ++ ·) := by
              rw [lexFrom, hs, hbefore, Option.bind_some, hnow, Option.bind_some]
            rw [List.cons_append, hstep, hall rest hrest]
            simp [Function.comp_def]

end

section
variable {d : Dialect} {k k' : Nat} {s : String} {ts : List Lexeme}

/-- The lexemes of a text stay what they are in front of what ends a lexeme. -/
theorem lexes_of_lexFrom (h : lexFrom d k .between s.toList = some ts) :
    Lexes d k s (k + parameterCount ts) ts := by
  obtain ⟨k', hk, hall⟩ := lexFrom_append h
  obtain rfl : k' = k + parameterCount ts := hk
  exact hall

theorem Lexes.lexFrom_eq (h : Lexes d k s k' ts) : lexFrom d k .between s.toList = some ts := by
  have hend := h [] endsLexeme_nil
  rw [List.append_nil] at hend
  rw [hend]
  simp [lexFrom, Scan.lexemes?]

/-- The number of the next placeholder tells how many there are. -/
theorem Lexes.eq_add (h : Lexes d k s k' ts) : k' = k + parameterCount ts := by
  have hmark (j : Nat) : lexFrom d j .between " ?".toList = some [.parameter j] := by
    have hblank : " ?".toList = [' ', '?'] := rfl
    rw [hblank, lexFrom_blank, lexFrom_mark]
    rfl
  have h₁ := h " ?".toList (endsLexeme_blank ['?'])
  have h₂ := lexes_of_lexFrom h.lexFrom_eq " ?".toList (endsLexeme_blank ['?'])
  rw [h₂, hmark, hmark] at h₁
  simpa using h₁.symm

end

section
variable {d : Dialect} {k : Nat} {s : String} {ss : List String} {ts : List Lexeme}
  {tss : List (List Lexeme)}

theorem lexAll_cons_eq_some (h : lexAll d k (s :: ss) = some tss) :
    ∃ ts uss, lexFrom d k .between s.toList = some ts ∧
      lexAll d (k + parameterCount ts) ss = some uss ∧ tss = ts :: uss := by
  obtain ⟨ts, hts, h⟩ := Option.bind_eq_some_iff.1 h
  obtain ⟨uss, huss, rfl⟩ := Option.map_eq_some_iff.1 h
  exact ⟨ts, uss, hts, huss, rfl⟩

theorem lexAll_cons (h : lexFrom d k .between s.toList = some ts)
    (hs : lexAll d (k + parameterCount ts) ss = some tss) :
    lexAll d k (s :: ss) = some (ts :: tss) := by
  rw [lexAll, h, Option.bind_some, hs]
  rfl

theorem length_of_lexAll {ss : List String} (h : lexAll d k ss = some tss) :
    tss.length = ss.length := by
  induction ss generalizing k tss with
  | nil => cases h; rfl
  | cons s ss ih =>
      obtain ⟨ts, uss, -, huss, rfl⟩ := lexAll_cons_eq_some h
      rw [List.length_cons, List.length_cons, ih huss]

end

end SqlTree
