import SqlTree.Proofs.Reading.Text

/-!
# Reading — regrouping

What the text of an expression is read as.  `Expression.reread` says it without lexemes and frames:
the operators of one strength that stand next to each other without parentheses are grouped to the
left, and a `not` or a null test next to a comparison takes it in whole.
-/

namespace SqlTree

/-- An operand and the operator between it and what follows. -/
abbrev Pending := Option (Expression × BinaryOperator)

/-- An expression behind a pending operand. -/
def joined (e : Expression) : Pending → Expression
  | none => e
  | some (l, op) => .binary l op e

/-- The frames, and that of a pending operand in front of them. -/
def Pending.frames (fs : List Frame) : Pending → List Frame
  | none => fs
  | some (l, op) => .operand l op :: fs

namespace Expression

/-- How tightly the text of an expression holds together from the left. -/
def level : Expression → Nat
  | atom _ | negate _ => 16
  | not _ | isNull _ _ => 7
  | binary _ op _ => if op.isComparison then 7 else op.level

def isNot : Expression → Bool
  | not _ => true
  | _ => false

def isNullTest : Expression → Bool
  | isNull _ _ => true
  | _ => false

/-- Applies `f` to an operand that is read as `e`.  A loose test is left outside of `f`. -/
def liftTest (loose : Bool) (e : Expression) (f : Expression → Expression) : Expression :=
  match loose, e with
  | true, not x => not (f x)
  | true, isNull negated x => isNull negated (f x)
  | _, _ => f e

/-- The expression that is read off the text of an expression behind a pending operand.  That
operand and its operator bind exactly as tightly as the expression. -/
def reread (q : Pending) : Expression → Expression
  | atom a => joined (atom a) q
  | not e => joined (not (e.reread none)) q
  | negate e => joined (negate (e.reread none)) q
  | isNull negated e => joined (isNull negated (e.reread none)) q
  | binary l op r =>
    if op.isComparison then
      joined (liftTest l.isNot (l.reread none) fun x =>
        liftTest r.isNullTest (r.reread none) fun y => binary x op y) q
    else
      let left := if l.level = op.level then l.reread q else joined (l.reread none) q
      if r.level = op.level ∧ ¬ r.rightParens op then r.reread (some (left, op))
      else binary left op (r.reread none)

/-- Whether every operand without parentheses binds at least as tightly as the operator next to it.
Nothing is asked of the operands of comparisons. -/
def Tight : Expression → Prop
  | atom _ => True
  | not e | negate e | isNull _ e => e.Tight
  | binary l op r =>
    l.Tight ∧ r.Tight ∧
      (op.isComparison ∨
        (l.leftParens op ∨ op.level ≤ l.level) ∧ (r.rightParens op ∨ op.level ≤ r.level))

/-- Whether an expression is a `not` or a null test. -/
def isTest (e : Expression) : Bool := e.isNot || e.isNullTest

/-- The operand of an operator of one operand. -/
def operand? : Expression → Option Expression
  | not e | negate e | isNull _ e => some e
  | _ => none

/-- The text of an expression is read as `reread` says, behind any frames that bind more loosely.
What has been read differs from that at most by frames that bind at least as tightly as the
expression. -/
def Rereads (e : Expression) : Prop :=
  ∀ (q : Pending) (fs : List Frame) (rest : List Lexeme),
    (∀ l op, q = some (l, op) → op.level = e.level) → Below e.level fs →
    ∃ fs' p v, p.value? = some v ∧
      parse (q.frames fs) .operand (e.lexemes ++ rest) = parse fs' p rest ∧
      ∀ L ≤ e.level, reduce L fs' v = reduce L fs (e.reread q)

end Expression

open Expression

/-! ### Levels -/

section
variable {op : BinaryOperator} {e : Expression}

theorem isComparison_iff : op.isComparison ↔ op.precedence = 3 := beq_iff_eq

theorem level_of_isComparison (h : op.isComparison) : op.level = 9 := by
  rw [BinaryOperator.level, isComparison_iff.mp h]

theorem level_lt_of_leftParens (hop : ¬ op.isComparison) (h : e.leftParens op) :
    e.level < op.level := by
  cases e with
  | binary l child r =>
      have hc : child.precedence < op.precedence := by simpa [leftParens, hop] using h
      by_cases hcmp : child.isComparison
      · rw [Expression.level, if_pos hcmp]
        have h9 := level_of_isComparison hcmp
        unfold BinaryOperator.level at *
        omega
      · rw [Expression.level, if_neg hcmp]
        unfold BinaryOperator.level
        omega
  | _ => cases h

/-- An operand without parentheses binds at least as tightly as an operator that groups to the left,
unless it is a test next to an arithmetic operator. -/
theorem parens_or_level_le (hop : ¬ op.isComparison) (he : e.isTest → op.level ≤ 7) :
    (e.leftParens op ∨ op.level ≤ e.level) ∧ (e.rightParens op ∨ op.level ≤ e.level) := by
  cases e with
  | not x | isNull b x => exact ⟨.inr (he rfl), .inr (he rfl)⟩
  | atom a | negate x =>
      have h : op.level ≤ 16 := by cases op <;> decide
      exact ⟨.inr h, .inr h⟩
  | binary l child r =>
      by_cases h : child.precedence < op.precedence
      · exact ⟨.inl (by simp [leftParens, h]), .inl (by simp [rightParens, h])⟩
      · have hle : op.level ≤ (Expression.binary l child r).level := by
          by_cases hc : child.isComparison
          · rw [Expression.level, if_pos hc]
            rw [isComparison_iff] at hc hop
            unfold BinaryOperator.level
            omega
          · rw [Expression.level, if_neg hc]
            unfold BinaryOperator.level
            omega
        exact ⟨.inr hle, .inr hle⟩

theorem level_ne (op : BinaryOperator) : op.level ≠ 7 ∧ op.level ≠ 16 := by
  cases op <;> decide

theorem Expression.level_pos (e : Expression) : 0 < e.level := by
  cases e with
  | binary l op r =>
      by_cases h : op.isComparison
      · rw [Expression.level, if_pos h]
        decide
      · rw [Expression.level, if_neg h]
        cases op <;> decide
  | _ => exact Nat.succ_pos _

/-- Only an operator that groups to the left takes up a pending operand of its own level. -/
theorem pending_eq_none {q : Pending} {n : Nat} (hn : n = 7 ∨ n = 16)
    (hq : ∀ l op, q = some (l, op) → op.level = n) : q = none := by
  cases q with
  | none => rfl
  | some x =>
      have h := hq x.1 x.2 rfl
      rcases hn with rfl | rfl
      · exact absurd h (level_ne x.2).1
      · exact absurd h (level_ne x.2).2

end

/-! ### Chains -/

section
variable {op : BinaryOperator} {l r : Expression} {q : Pending}

theorem level_binary (hop : ¬ op.isComparison) : (Expression.binary l op r).level = op.level :=
  if_neg hop

/-- What is read of a left operand and of what is pending in front of it. -/
def leftPart (op : BinaryOperator) (q : Pending) (l : Expression) : Expression :=
  if l.level = op.level then l.reread q else joined (l.reread none) q

/-- Whether an operator and its right operand belong to one chain without parentheses. -/
def Continues (op : BinaryOperator) (r : Expression) : Prop :=
  r.level = op.level ∧ ¬ r.rightParens op

theorem reread_of_continues (hop : ¬ op.isComparison) (hr : Continues op r) :
    (Expression.binary l op r).reread q = r.reread (some (leftPart op q l, op)) := by
  rw [reread, if_neg hop]
  exact if_pos hr

theorem reread_of_not_continues (hop : ¬ op.isComparison) (hr : ¬ Continues op r) :
    (Expression.binary l op r).reread q = .binary (leftPart op q l) op (r.reread none) := by
  rw [reread, if_neg hop]
  exact if_neg hr

theorem isAssociative_of_continues (h : Continues op r) :
    op.isAssociative ∧ ∃ l' r', r = .binary l' op r' := by
  obtain ⟨hlevel, hparens⟩ := h
  cases r with
  | binary l' child r' =>
      by_cases hc : child.isComparison
      · rw [Expression.level, if_pos hc] at hlevel
        exact absurd hlevel.symm (level_ne op).1
      · rw [Expression.level, if_neg hc] at hlevel
        have hp : child.precedence = op.precedence := by
          unfold BinaryOperator.level at hlevel
          omega
        have hsame : child = op ∧ op.isAssociative := by
          simpa [rightParens, hp] using hparens
        exact ⟨hsame.2, l', r', by rw [hsame.1]⟩
  | not | isNull => exact absurd hlevel.symm (level_ne op).1
  | atom | negate => exact absurd hlevel.symm (level_ne op).2

end

/-! ### Operands -/

section
variable {e : Expression} {fs : List Frame} {rest : List Lexeme}

theorem parse_atom (fs : List Frame) (rest : List Lexeme) (a : Atom) :
    ∃ p : Phase, p.value? = some (.atom a) ∧
      parse fs .operand (a.lexemes ++ rest) = parse fs p rest := by
  rcases a with ⟨_ | table, name⟩ | k
  · exact ⟨.name name, rfl, rfl⟩
  · exact ⟨.value _, rfl, rfl⟩
  · exact ⟨.value _, rfl, rfl⟩

theorem Expression.Rereads.parenthesized (h : Rereads e) :
    parse fs .operand (parenthesizedLexemes true e.lexemes ++ rest) =
      parse fs (.value (e.reread none)) rest := by
  obtain ⟨fs', p, v, hv, hparse, hred⟩ :=
    h none (.paren :: fs) (.closing :: rest) (by simp) (below_cons e.level_pos)
  have hclose : reduce 1 fs' v = (.paren :: fs, e.reread none) := by
    rw [hred 1 e.level_pos, reduce_of_below (below_cons (by decide))]
  have htext : parenthesizedLexemes true e.lexemes ++ rest =
      .opening :: (e.lexemes ++ .closing :: rest) := by
    simp [parenthesizedLexemes]
  rw [htext, ← parse_closing hv hclose, ← hparse]
  rfl

/-- The operand of an operator of one operand is read as it stands. -/
theorem Expression.Rereads.operand (h : Rereads e) (fs : List Frame) (rest : List Lexeme) :
    ∃ p : Phase, p.value? = some (e.reread none) ∧
      parse fs .operand (parenthesizedLexemes (!e.isAtom) e.lexemes ++ rest) = parse fs p rest := by
  cases e with
  | atom a => exact parse_atom fs rest a
  | _ => exact ⟨.value _, rfl, h.parenthesized⟩

theorem rereads_atom (a : Atom) : Rereads (atom a) := by
  intro q fs rest hq hfs
  obtain rfl := pending_eq_none (.inr rfl) hq
  obtain ⟨p, hp, hparse⟩ := parse_atom fs rest a
  exact ⟨fs, p, atom a, hp, hparse, fun _ _ => rfl⟩

theorem Expression.Rereads.not (h : Rereads e) : Rereads (not e) := by
  intro q fs rest hq hfs
  obtain rfl := pending_eq_none (.inl rfl) hq
  obtain ⟨p, hp, hparse⟩ := h.operand (.not :: fs) rest
  exact ⟨.not :: fs, p, _, hp, hparse, fun L hL => reduce_cons hL⟩

theorem Expression.Rereads.negate (h : Rereads e) : Rereads (negate e) := by
  intro q fs rest hq hfs
  obtain rfl := pending_eq_none (.inr rfl) hq
  obtain ⟨p, hp, hparse⟩ := h.operand (.negate :: fs) rest
  exact ⟨.negate :: fs, p, _, hp, hparse, fun L hL => reduce_cons hL⟩

theorem Expression.Rereads.parse_isNull (negated : Bool) (h : Rereads e)
    (hfs : Below nullTestLevel fs) :
    parse fs .operand ((isNull negated e).lexemes ++ rest) =
      parse fs (.value (.isNull negated (e.reread none))) rest := by
  obtain ⟨p, hp, hparse⟩ := h.operand fs (nullTestLexemes negated ++ rest)
  have htest := parse_nullTest fs rest hp negated
  rw [reduce_of_below hfs] at htest
  rw [lexemes, List.append_assoc, ← htest, hparse]

theorem Expression.Rereads.isNull (negated : Bool) (h : Rereads e) :
    Rereads (isNull negated e) := by
  intro q fs rest hq hfs
  obtain rfl := pending_eq_none (.inl rfl) hq
  have hbelow : Below nullTestLevel fs := hfs.mono (Nat.le_succ 7)
  exact ⟨fs, _, _, rfl, h.parse_isNull negated hbelow, fun _ _ => rfl⟩

/-! ### Operators that group to the left -/

section
variable {l r : Expression} {op : BinaryOperator} {q : Pending}

theorem below_frames {n : Nat} (hq : ∀ x o, q = some (x, o) → o.level < n) (h : Below n fs) :
    Below n (q.frames fs) := by
  cases q with
  | none => exact h
  | some x => exact below_cons (hq x.1 x.2 rfl)

theorem reduce_frames (hq : ∀ x o, q = some (x, o) → o.level = op.level) (h : Below op.level fs) :
    reduce op.level (q.frames fs) e = (fs, joined e q) := by
  cases q with
  | none => exact reduce_of_below h
  | some x =>
      have hle : op.level ≤ (Frame.operand x.1 x.2).level := (hq x.1 x.2 rfl).ge
      exact (reduce_cons hle).trans (reduce_of_below h)

/-- The left operand takes up what is pending, if it is a chain of the same level. -/
theorem Expression.Rereads.left (hl : Rereads l) (rest : List Lexeme) (hop : ¬ op.isComparison)
    (ht : l.leftParens op ∨ op.level ≤ l.level)
    (hq : ∀ x o, q = some (x, o) → o.level = op.level) (hfs : Below op.level fs) :
    ∃ fs' p v, p.value? = some v ∧
      parse (q.frames fs) .operand (parenthesizedLexemes (l.leftParens op) l.lexemes ++ rest) =
        parse fs' p rest ∧
      reduce op.level fs' v = (fs, leftPart op q l) := by
  by_cases hp : l.leftParens op
  · -- in parentheses: closed before the pending operand is
    have hlt := level_lt_of_leftParens hop hp
    refine ⟨q.frames fs, .value (l.reread none), _, rfl, ?_, ?_⟩
    · rw [hp, hl.parenthesized]
    · rw [reduce_frames hq hfs, leftPart, if_neg hlt.ne]
  · have hle := ht.resolve_left hp
    rw [Bool.not_eq_true] at hp
    rw [hp]
    by_cases he : l.level = op.level
    · -- a chain of the same level goes on from the pending operand
      obtain ⟨fs', p, v, hv, hparse, hred⟩ :=
        hl q fs rest (fun x o h => (hq x o h).trans he.symm) (he ▸ hfs)
      refine ⟨fs', p, v, hv, hparse, ?_⟩
      rw [hred _ hle, leftPart, if_pos he, reduce_of_below hfs]
    · -- what binds more tightly ends in front of the operator
      have hlt : op.level < l.level := lt_of_le_of_ne hle (Ne.symm he)
      have hbelow : Below l.level (q.frames fs) :=
        below_frames (fun x o h => (hq x o h).trans_lt hlt) (hfs.mono hle)
      obtain ⟨fs', p, v, hv, hparse, hred⟩ := hl none (q.frames fs) rest (by simp) hbelow
      refine ⟨fs', p, v, hv, hparse, ?_⟩
      rw [hred _ hle, leftPart, if_neg he]
      exact reduce_frames hq hfs

/-- The right operand takes up the left one, if it is a chain of the same level. -/
theorem Expression.Rereads.right (hr : Rereads r) (left : Expression) (rest : List Lexeme)
    (ht : r.rightParens op ∨ op.level ≤ r.level) (hfs : Below op.level fs) :
    ∃ fs' p v, p.value? = some v ∧
      parse (.operand left op :: fs) .operand
          (parenthesizedLexemes (r.rightParens op) r.lexemes ++ rest) =
        parse fs' p rest ∧
      ∀ L ≤ op.level, reduce L fs' v = reduce L fs
        (if r.level = op.level ∧ ¬ r.rightParens op then r.reread (some (left, op))
          else .binary left op (r.reread none)) := by
  by_cases hp : r.rightParens op
  · refine ⟨.operand left op :: fs, .value (r.reread none), _, rfl, ?_, fun L hL => ?_⟩
    · rw [hp, hr.parenthesized]
    · rw [if_neg (fun h => h.2 hp)]
      exact reduce_cons hL
  · have hle := ht.resolve_left hp
    by_cases he : r.level = op.level
    · -- the operator and what is in front of it are pending for the right operand
      have hq : ∀ x o, some (left, op) = some (x, o) → o.level = r.level := by
        intro x o h
        obtain ⟨-, rfl⟩ := Prod.mk.inj (Option.some.inj h)
        exact he.symm
      obtain ⟨fs', p, v, hv, hparse, hred⟩ := hr (some (left, op)) fs rest hq (he ▸ hfs)
      rw [if_pos ⟨he, hp⟩]
      rw [Bool.not_eq_true] at hp
      rw [hp]
      exact ⟨fs', p, v, hv, hparse, fun L hL => hred L (hL.trans hle)⟩
    · have hlt : op.level < r.level := lt_of_le_of_ne hle (Ne.symm he)
      obtain ⟨fs', p, v, hv, hparse, hred⟩ :=
        hr none (.operand left op :: fs) rest (by simp) (below_cons hlt)
      rw [if_neg (fun h => he h.1)]
      rw [Bool.not_eq_true] at hp
      rw [hp]
      refine ⟨fs', p, v, hv, hparse, fun L hL => ?_⟩
      rw [hred L (hL.trans hle)]
      exact reduce_cons hL

theorem Expression.Rereads.binary (hl : Rereads l) (hr : Rereads r) (hop : ¬ op.isComparison)
    (htl : l.leftParens op ∨ op.level ≤ l.level) (htr : r.rightParens op ∨ op.level ≤ r.level) :
    Rereads (.binary l op r) := by
  have hlevel : (Expression.binary l op r).level = op.level := if_neg hop
  intro q fs rest hq hfs
  rw [hlevel] at hq hfs
  obtain ⟨fs₁, p₁, v₁, hv₁, hparse₁, hred₁⟩ :=
    hl.left (op.lexemes ++ (parenthesizedLexemes (r.rightParens op) r.lexemes ++ rest))
      hop htl hq hfs
  obtain ⟨fs₂, p₂, v₂, hv₂, hparse₂, hred₂⟩ := hr.right _ rest htr hfs
  refine ⟨fs₂, p₂, v₂, hv₂, ?_, ?_⟩
  · -- the left operand, the operator, the right operand
    rw [lexemes, List.append_assoc, List.append_assoc, hparse₁, parse_operator hv₁,
      shift_of_not_isComparison hop, hred₁]
    exact hparse₂
  · rw [hlevel, reread, if_neg hop]
    exact hred₂

/-! ### Comparisons -/

theorem eq_not_of_isNot (h : e.isNot) : ∃ x, e = .not x := by
  cases e with
  | not x => exact ⟨x, rfl⟩
  | _ => cases h

theorem eq_isNull_of_isNullTest (h : e.isNullTest) : ∃ negated x, e = .isNull negated x := by
  cases e with
  | isNull negated x => exact ⟨negated, x, rfl⟩
  | _ => cases h

theorem not_insideComparison (h : Below nullTestLevel fs) : ¬ insideComparison fs := by
  intro hc
  cases fs with
  | nil => cases hc
  | cons f fs =>
      cases f with
      | operand l op =>
          have h9 := level_of_isComparison hc
          have h8 : op.level < nullTestLevel := h _ rfl
          rw [h9] at h8
          exact absurd h8 (by decide)
      | _ => cases hc

/-- A bare binary operand of a comparison binds more tightly. -/
theorem level_lt_of_precedence {child : BinaryOperator} (hop : op.isComparison)
    (h : op.precedence < child.precedence) : op.level < (Expression.binary l child r).level := by
  have hchild : ¬ child.isComparison := by
    rw [isComparison_iff] at hop ⊢
    omega
  rw [Expression.level, if_neg hchild]
  unfold BinaryOperator.level
  omega

/-- Next to a comparison, what has no parentheses is a test or binds more tightly. -/
theorem level_lt_of_not_leftParens (hop : op.isComparison) (h : ¬ e.leftParens op)
    (ht : ¬ e.isTest) : op.level < e.level := by
  cases e with
  | not x | isNull b x => exact absurd rfl ht
  | binary l child r =>
      refine level_lt_of_precedence hop ?_
      simp only [leftParens, hop, Bool.and_true, Bool.or_eq_true, decide_eq_true_eq,
        beq_iff_eq] at h
      omega
  | _ =>
      rw [level_of_isComparison hop]
      exact (by decide : 9 < 16)

theorem level_lt_of_not_rightParens (hop : op.isComparison) (h : ¬ e.rightParens op)
    (ht : ¬ e.isTest) : op.level < e.level := by
  have hassoc : op.isAssociative = false := by
    cases op with
    | and | or | add | mul => cases hop
    | _ => rfl
  refine level_lt_of_not_leftParens hop ?_ ht
  cases e with
  | binary l child r => simpa [leftParens, rightParens, hop, hassoc] using h
  | _ => exact Bool.false_ne_true

theorem liftTest_of_not {loose : Bool} (h : ¬ loose) (e : Expression) :
    liftTest loose e = fun f => f e := by
  rw [Bool.not_eq_true] at h
  rw [h]
  rfl

/-- The left operand of a comparison: a `not` in front of it stays behind as a frame. -/
theorem Expression.Rereads.leftOfComparison (hl : Rereads l) (rest : List Lexeme)
    (hx : ∀ x, l.operand? = some x → Rereads x) (hop : op.isComparison) (hfs : Below 7 fs) :
    ∃ fs' p v, p.value? = some v ∧
      parse fs .operand (parenthesizedLexemes (l.leftParens op) l.lexemes ++ rest) =
        parse fs' p rest ∧
      ∃ fs'' x, reduce (op.level + 1) fs' v = (fs'', x) ∧ Below nullTestLevel fs'' ∧
        ∀ (f : Expression → Expression), ∀ L ≤ 7,
          reduce L fs'' (f x) = reduce L fs (liftTest l.isNot (l.reread none) f) := by
  have h9 := level_of_isComparison hop
  have hbelow : Below nullTestLevel fs := hfs.mono (Nat.le_succ 7)
  have hbelow' : Below (op.level + 1) fs := hfs.mono (by omega)
  by_cases hnot : l.isNot
  · -- the comparison takes the operand of the `not`
    obtain ⟨x, rfl⟩ := eq_not_of_isNot hnot
    obtain ⟨p, hv, hparse⟩ := (hx x rfl).operand (.not :: fs) rest
    have hframe : Below (op.level + 1) (.not :: fs) := below_cons (by rw [h9]; decide)
    exact ⟨.not :: fs, p, x.reread none, hv, hparse, .not :: fs, x.reread none,
      reduce_of_below hframe, below_cons (by decide), fun f L hL => reduce_cons hL⟩
  · rw [liftTest_of_not hnot]
    by_cases hp : l.leftParens op
    · refine ⟨fs, .value (l.reread none), _, rfl, ?_, fs, l.reread none, reduce_of_below hbelow',
        hbelow, fun f L _ => rfl⟩
      rw [hp, hl.parenthesized]
    · have hbare : parenthesizedLexemes (l.leftParens op) l.lexemes = l.lexemes := if_neg hp
      rw [hbare]
      by_cases hnull : l.isNullTest
      · -- a null test has ended when the comparison comes
        obtain ⟨b, x, rfl⟩ := eq_isNull_of_isNullTest hnull
        exact ⟨fs, _, _, rfl, (hx x rfl).parse_isNull b hbelow, fs, _, reduce_of_below hbelow',
          hbelow, fun f L _ => rfl⟩
      · have hlt := level_lt_of_not_leftParens hop hp (by simp [isTest, hnot, hnull])
        obtain ⟨fs', p, v, hv, hparse, hred⟩ := hl none fs rest (by simp) (hfs.mono (by omega))
        refine ⟨fs', p, v, hv, hparse, fs, l.reread none, ?_, hbelow, fun f L _ => rfl⟩
        rw [hred _ hlt, reduce_of_below hbelow']

/-- The right operand of a comparison: a null test behind it closes the comparison. -/
theorem Expression.Rereads.rightOfComparison (hr : Rereads r) (left : Expression)
    (rest : List Lexeme)
    (hx : ∀ x, r.operand? = some x → Rereads x) (hop : op.isComparison)
    (hfs : Below nullTestLevel fs) :
    ∃ fs' p v, p.value? = some v ∧
      parse (.operand left op :: fs) .operand
          (parenthesizedLexemes (r.rightParens op) r.lexemes ++ rest) =
        parse fs' p rest ∧
      ∀ L ≤ 7, reduce L fs' v =
        reduce L fs (liftTest r.isNullTest (r.reread none) fun y => .binary left op y) := by
  have h9 := level_of_isComparison hop
  have hclose : ∀ L ≤ nullTestLevel, ∀ y, reduce L (.operand left op :: fs) y =
      reduce L fs (.binary left op y) := by
    intro L hL y
    have hle : L ≤ (Frame.operand left op).level := by
      rw [Frame.level, h9]
      exact hL.trans (Nat.le_succ 8)
    exact reduce_cons hle
  by_cases hnull : r.isNullTest
  · -- the null test closes the comparison and takes it in
    obtain ⟨b, x, rfl⟩ := eq_isNull_of_isNullTest hnull
    obtain ⟨p, hv, hparse⟩ := (hx x rfl).operand (.operand left op :: fs)
      (nullTestLexemes b ++ rest)
    have htest := parse_nullTest (.operand left op :: fs) rest hv b
    rw [hclose nullTestLevel le_rfl, reduce_of_below hfs] at htest
    refine ⟨fs, .value (.isNull b (.binary left op (x.reread none))), _, rfl, ?_, fun L _ => rfl⟩
    have hbare : parenthesizedLexemes ((Expression.isNull b x).rightParens op)
        (Expression.isNull b x).lexemes = (Expression.isNull b x).lexemes := rfl
    rw [hbare, lexemes, List.append_assoc, hparse]
    exact htest
  · rw [liftTest_of_not hnull]
    by_cases hp : r.rightParens op
    · refine ⟨.operand left op :: fs, .value (r.reread none), _, rfl, ?_, fun L hL => ?_⟩
      · rw [hp, hr.parenthesized]
      · exact hclose L (hL.trans (Nat.le_succ 7)) _
    · have hbare : parenthesizedLexemes (r.rightParens op) r.lexemes = r.lexemes := if_neg hp
      rw [hbare]
      by_cases hnot : r.isNot
      · -- a `not` behind a comparison is its operand
        obtain ⟨x, rfl⟩ := eq_not_of_isNot hnot
        obtain ⟨p, hv, hparse⟩ := (hx x rfl).operand (.not :: .operand left op :: fs) rest
        refine ⟨.not :: .operand left op :: fs, p, _, hv, hparse, fun L hL => ?_⟩
        exact (reduce_cons hL).trans (hclose L (hL.trans (Nat.le_succ 7)) _)
      · have hlt := level_lt_of_not_rightParens hop hp (by simp [isTest, hnot, hnull])
        obtain ⟨fs', p, v, hv, hparse, hred⟩ :=
          hr none (.operand left op :: fs) rest (by simp) (below_cons hlt)
        refine ⟨fs', p, v, hv, hparse, fun L hL => ?_⟩
        rw [hred L (by omega)]
        exact hclose L (hL.trans (Nat.le_succ 7)) _

theorem Expression.Rereads.comparison (hl : Rereads l) (hr : Rereads r)
    (hxl : ∀ x, l.operand? = some x → Rereads x) (hxr : ∀ x, r.operand? = some x → Rereads x)
    (hop : op.isComparison) : Rereads (.binary l op r) := by
  have hlevel : (Expression.binary l op r).level = 7 := if_pos hop
  intro q fs rest hq hfs
  rw [hlevel] at hq hfs
  obtain rfl := pending_eq_none (.inl rfl) hq
  obtain ⟨fs₁, p₁, v₁, hv₁, hparse₁, fs', x, hred₁, hbelow, hjoin⟩ :=
    hl.leftOfComparison
      (op.lexemes ++ (parenthesizedLexemes (r.rightParens op) r.lexemes ++ rest))
      hxl hop hfs
  obtain ⟨fs₂, p₂, v₂, hv₂, hparse₂, hred₂⟩ :=
    hr.rightOfComparison x rest hxr hop hbelow
  refine ⟨fs₂, p₂, v₂, hv₂, ?_, fun L hL => ?_⟩
  · have hinside : ¬ insideComparison (reduce (op.level + 1) fs₁ v₁).1 := by
      rw [hred₁]
      exact not_insideComparison hbelow
    rw [lexemes, List.append_assoc, List.append_assoc]
    refine hparse₁.trans ?_
    rw [parse_operator hv₁, shift_of_isComparison hop hinside, hred₁]
    exact hparse₂
  · rw [hlevel] at hL
    rw [reread, if_pos hop, hred₂ L hL]
    exact hjoin (fun x => liftTest r.isNullTest (r.reread none) fun y => .binary x op y) L hL

end

end

/-- The text of an expression is read as it is regrouped. -/
theorem Expression.Tight.rereads {e : Expression} (h : e.Tight) :
    Rereads e ∧ ∀ x, e.operand? = some x → Rereads x := by
  -- a comparison takes the tests next to it apart, so their operands are carried along
  induction e with
  | atom a => exact ⟨rereads_atom a, fun _ h => by cases h⟩
  | not e ih =>
      have he := (ih h).1
      exact ⟨he.not, fun _ hx => Option.some.inj hx ▸ he⟩
  | negate e ih =>
      have he := (ih h).1
      exact ⟨he.negate, fun _ hx => Option.some.inj hx ▸ he⟩
  | isNull negated e ih =>
      have he := (ih h).1
      exact ⟨he.isNull negated, fun _ hx => Option.some.inj hx ▸ he⟩
  | binary l op r ihl ihr =>
      obtain ⟨hl, hr, ht⟩ := h
      obtain ⟨ihl, ihxl⟩ := ihl hl
      obtain ⟨ihr, ihxr⟩ := ihr hr
      refine ⟨?_, fun _ h => by cases h⟩
      by_cases hop : op.isComparison
      · exact ihl.comparison ihr ihxl ihxr hop
      · obtain ⟨htl, htr⟩ := ht.resolve_left hop
        exact ihl.binary ihr hop htl htr

/-- **Regrouping.**  The lexemes of an expression are read as it is regrouped. -/
theorem parse_lexemes {e : Expression} (h : e.Tight) :
    parse [] .operand e.lexemes = some (e.reread none) := by
  obtain ⟨fs, p, v, hv, hparse, hred⟩ := h.rereads.1 none [] [] (by simp) below_nil
  rw [List.append_nil] at hparse
  rw [← parse_end hv (hred 1 e.level_pos), ← hparse]
  rfl

/-- A tree with a tight expression is written, and its text is read as the expression regrouped. -/
theorem Node.read_compile_eq_reread (d : Dialect) {n : Node} {e : Expression}
    (h : n.expression? 1 = some e) (ht : e.Tight) :
    ∃ s, n.compile d = .ok s ∧ d.read s.sql = some (e.reread none) := by
  obtain ⟨s, hs, hread⟩ := Node.read_compile d h
  exact ⟨s, hs, hread.trans (parse_lexemes ht)⟩

end SqlTree
