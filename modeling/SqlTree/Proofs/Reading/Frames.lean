import SqlTree.Proofs.Reading.Grammar

/-!
# Reading — frames below others

What the frames below the innermost ones are to the reader.  A lexeme makes one of five `Move`s,
which depend on what has been read of the innermost frame and not on the frames themselves
(`step_eq`); so two runs over the same lexemes from different frames are compared move by move.

A frame of a parenthesis is closed by its parenthesis and by nothing else: the parentheses among the
frames are counted by the lexemes (`depth_of_step`), and a text that is read alone is read in
parentheses in the same way (`parse_parenthesized`).  An `or` outside of parentheses stays below
everything that follows, so that a text with one is read as an `or` (`isDisjunction_of_parse`).
-/

namespace SqlTree

/-! ### Moves -/

/-- What a lexeme does to the frames. -/
inductive Move where
  | stay (p : Phase)
  | enter (f : Frame)
  | shift (e : Expression) (op : BinaryOperator)
  /-- An operand ends in front of a null test. -/
  | test (e : Expression)
  /-- The innermost parenthesis is closed. -/
  | close (e : Expression)

/-- The move of a lexeme behind an operand. -/
def moveBehind? (e : Expression) : Lexeme → Option Move
  | .operator op => some (.shift e op)
  | .not => some (.stay (.negated e))
  | .is => some (.test e)
  | .closing => some (.close e)
  | _ => none

def move? : Phase → Lexeme → Option Move
  | .operand, .name s => some (.stay (.name s))
  | .operand, .parameter k => some (.stay (.value (.atom (.parameter k))))
  | .operand, .opening => some (.enter .paren)
  | .operand, .not => some (.enter .not)
  | .operand, .operator .sub => some (.enter .negate)
  | .name s, .dot => some (.stay (.dotted s))
  | .dotted table, .name s => some (.stay (.value (.atom (.column (some table) s))))
  | .negated e, .operator .like => some (.shift e .notLike)
  | .negated e, .operator .isIn => some (.shift e .notIn)
  | .is e, .null => some (.stay (.value (.isNull false e)))
  | .is e, .not => some (.stay (.isNot e))
  | .isNot e, .null => some (.stay (.value (.isNull true e)))
  | p, t => p.value?.bind fun e => moveBehind? e t

namespace Move

def run (fs : List Frame) : Move → Option (List Frame × Phase)
  | stay p => some (fs, p)
  | enter f => some (f :: fs, .operand)
  | shift e op => SqlTree.shift fs e op
  | test e => some ((reduce nullTestLevel fs e).1, .is (reduce nullTestLevel fs e).2)
  | close e =>
    match reduce 1 fs e with
    | (.paren :: fs, e) => some (fs, .value e)
    | _ => none

/-- How deep in parentheses the text behind a move stands. -/
def depth (k : Nat) : Move → Nat
  | enter .paren => k + 1
  | close _ => k - 1
  | _ => k

end Move

theorem step_eq (fs : List Frame) (p : Phase) (t : Lexeme) :
    step fs p t = (move? p t).bind (Move.run fs) := by
  cases p with
  | operand | negated e =>
      cases t with
      | operator op => cases op <;> rfl
      | _ => rfl
  | _ => cases t <;> rfl

section
variable {fs gs : List Frame} {f : Frame} {e : Expression} {p : Phase} {t : Lexeme} {m : Move}

/-- An `or` is taken up as an operator and as nothing else. -/
theorem move_or (h : move? p t = some m) (ht : t = .operator .or) : ∃ e, m = .shift e .or := by
  subst ht
  cases p with
  | name s | value e => exact ⟨_, (Option.some.inj h).symm⟩
  | _ => cases h

theorem eq_of_enter (h : move? p t = some (.enter f)) : f = .paren ∨ f = .not ∨ f = .negate := by
  cases p with
  | operand =>
      cases t with
      | opening => exact .inl (Move.enter.inj (Option.some.inj h)).symm
      | not => exact .inr (.inl (Move.enter.inj (Option.some.inj h)).symm)
      | operator op =>
          cases op with
          | sub => exact .inr (.inr (Move.enter.inj (Option.some.inj h)).symm)
          | _ => cases h
      | _ => cases h
  | negated e =>
      cases t with
      | operator op => cases op <;> cases h
      | _ => cases h
  | _ => cases t <;> cases h

theorem eq_or_of_move {op : BinaryOperator} (h : move? p t = some (.shift e op)) (hop : op = .or) :
    t = .operator .or := by
  subst hop
  cases p with
  | operand | negated e' =>
      cases t with
      | operator op => cases op <;> cases h
      | _ => cases h
  | _ => cases t <;> cases h <;> rfl

theorem eq_of_close (h : (Move.close e).run fs = some (gs, p)) :
    ∃ v, reduce 1 fs e = (.paren :: gs, v) ∧ p = .value v := by
  rw [Move.run] at h
  split at h
  · next hr =>
      obtain ⟨rfl, rfl⟩ := Prod.mk.inj (Option.some.inj h)
      exact ⟨_, hr, rfl⟩
  · cases h

end

/-! ### Operators -/

/-- The level down to which an operator closes the frames in front of it. -/
def BinaryOperator.leftLevel (op : BinaryOperator) : Nat :=
  if op.isComparison then op.level + 1 else op.level

theorem BinaryOperator.leftLevel_pos (op : BinaryOperator) : 1 ≤ op.leftLevel := by
  cases op <;> decide

theorem BinaryOperator.or_level_le (op : BinaryOperator) : or.level ≤ op.level := by
  cases op <;> decide

theorem BinaryOperator.level_le_leftLevel (op : BinaryOperator) : op.level ≤ op.leftLevel := by
  cases op <;> decide

theorem BinaryOperator.eq_or_of_level_lt (op : BinaryOperator)
    (h : op.level < BinaryOperator.and.level) : op = .or := by
  cases op with
  | or => rfl
  | _ => exact absurd h (by decide)

theorem shift_eq (fs : List Frame) (e : Expression) (op : BinaryOperator) :
    shift fs e op =
      if op.isComparison ∧ insideComparison (reduce op.leftLevel fs e).1 then none
      else
        some (.operand (reduce op.leftLevel fs e).2 op :: (reduce op.leftLevel fs e).1,
          .operand) := by
  by_cases hop : op.isComparison
  · rw [shift, BinaryOperator.leftLevel, if_pos hop, if_pos hop]
    simp only [hop, true_and]
  · rw [shift_of_not_isComparison hop, BinaryOperator.leftLevel, if_neg hop,
      if_neg fun h => hop h.1]

theorem eq_of_shift {fs gs : List Frame} {e : Expression} {op : BinaryOperator} {p : Phase}
    (h : shift fs e op = some (gs, p)) :
    gs = .operand (reduce op.leftLevel fs e).2 op :: (reduce op.leftLevel fs e).1 ∧
      p = .operand := by
  rw [shift_eq] at h
  split at h
  · cases h
  · obtain ⟨rfl, rfl⟩ := Prod.mk.inj (Option.some.inj h)
    exact ⟨rfl, rfl⟩

/-! ### Parentheses -/

/-- How deep in parentheses the text behind a lexeme stands. -/
def Lexeme.depth (k : Nat) : Lexeme → Nat
  | opening => k + 1
  | closing => k - 1
  | _ => k

/-- Whether there is an `or` outside of parentheses, behind `k` of them. -/
def hasOpenOr : Nat → List Lexeme → Bool
  | _, [] => false
  | k, t :: ts => (k == 0 && t == .operator .or) || hasOpenOr (t.depth k) ts

theorem hasOpenOr_cons {t : Lexeme} (h : t ≠ .operator .or) (k : Nat) (ts : List Lexeme) :
    hasOpenOr k (t :: ts) = hasOpenOr (t.depth k) ts := by
  simp [hasOpenOr, h]

theorem hasOpenOr_opening (k : Nat) (ts : List Lexeme) :
    hasOpenOr k (.opening :: ts) = hasOpenOr (k + 1) ts :=
  hasOpenOr_cons Lexeme.noConfusion k ts

theorem hasOpenOr_closing (k : Nat) (ts : List Lexeme) :
    hasOpenOr (k + 1) (.closing :: ts) = hasOpenOr k ts :=
  hasOpenOr_cons Lexeme.noConfusion (k + 1) ts

/-- How many parentheses are open. -/
def parens (fs : List Frame) : Nat := fs.count .paren

section
variable {L : Nat} {f : Frame} {fs gs : List Frame} {e v : Expression} {p p' : Phase} {t : Lexeme}
  {m : Move} {ts : List Lexeme}

theorem level_eq_zero_iff : f.level = 0 ↔ f = .paren := by
  cases f with
  | operand l op => cases op <;> simp [Frame.level, BinaryOperator.level, BinaryOperator.precedence]
  | _ => simp [Frame.level]

theorem ne_paren_of_le_level (hL : 1 ≤ L) (h : L ≤ f.level) : f ≠ .paren := by
  intro hf
  rw [level_eq_zero_iff.2 hf] at h
  exact absurd (hL.trans h) (by decide)

theorem mem_iff_parens_pos : Frame.paren ∈ fs ↔ 0 < parens fs := List.count_pos_iff.symm

theorem parens_paren : parens (.paren :: fs) = parens fs + 1 := List.count_cons_self

theorem parens_cons_of_ne (h : f ≠ .paren) : parens (f :: fs) = parens fs :=
  List.count_cons_of_ne h

theorem parens_reduce (hL : 1 ≤ L) (fs : List Frame) (e : Expression) :
    parens (reduce L fs e).1 = parens fs := by
  induction fs generalizing e with
  | nil => rfl
  | cons f fs ih =>
      rw [reduce]
      split
      · next hle =>
          -- what is closed is no parenthesis
          rw [ih, parens_cons_of_ne (ne_paren_of_le_level hL hle)]
      · rfl

theorem parens_of_reduce (hL : 1 ≤ L) (h : reduce L fs e = (gs, v)) : parens gs = parens fs := by
  rw [← parens_reduce hL fs e, h]

theorem paren_mem_reduce_iff (hL : 1 ≤ L) : Frame.paren ∈ (reduce L fs e).1 ↔ Frame.paren ∈ fs := by
  rw [mem_iff_parens_pos, mem_iff_parens_pos, parens_reduce hL]

theorem paren_mem_of_reduce (h : reduce 1 fs e = (.paren :: gs, v)) : Frame.paren ∈ fs := by
  rw [← paren_mem_reduce_iff le_rfl, h]
  exact List.mem_cons_self

theorem depth_of_move (h : move? p t = some m) (k : Nat) : t.depth k = m.depth k := by
  cases p with
  | operand | negated e =>
      cases t with
      | operator op => cases op <;> cases h <;> rfl
      | _ => cases h <;> rfl
  | _ => cases t <;> cases h <;> rfl

/-- A parenthesis that opens or closes in the text does so among the frames. -/
theorem parens_of_run (h : m.run fs = some (gs, p)) (k : Nat) :
    m.depth (parens fs + k) = parens gs + k := by
  cases m with
  | stay q =>
      obtain ⟨rfl, -⟩ := Prod.mk.inj (Option.some.inj h)
      rfl
  | enter f =>
      obtain ⟨rfl, -⟩ := Prod.mk.inj (Option.some.inj h)
      by_cases hf : f = .paren
      · subst hf
        rw [parens_paren]
        exact Nat.add_right_comm ..
      · rw [parens_cons_of_ne hf]
        cases f with
        | paren => exact absurd rfl hf
        | _ => rfl
  | shift e op =>
      obtain ⟨rfl, -⟩ := eq_of_shift h
      rw [parens_cons_of_ne Frame.noConfusion, parens_reduce op.leftLevel_pos]
      rfl
  | test e =>
      obtain ⟨rfl, -⟩ := Prod.mk.inj (Option.some.inj h)
      rw [parens_reduce (by decide)]
      rfl
  | close e =>
      obtain ⟨v, hv, -⟩ := eq_of_close h
      rw [Move.depth, ← parens_of_reduce le_rfl hv, parens_paren]
      exact Nat.succ_add_sub_one ..

theorem depth_of_step (h : step fs p t = some (gs, p')) (k : Nat) :
    t.depth (parens fs + k) = parens gs + k := by
  rw [step_eq] at h
  obtain ⟨m, hm, hrun⟩ := Option.bind_eq_some_iff.1 h
  rw [depth_of_move hm, parens_of_run hrun]

theorem depth_parens (h : step fs p t = some (gs, p')) : t.depth (parens fs) = parens gs :=
  depth_of_step h 0

theorem parse_nil_eq_some (h : parse fs p [] = some e) :
    ∃ v, p.value? = some v ∧ reduce 1 fs v = ([], e) := by
  obtain ⟨v, hv, h⟩ := Option.bind_eq_some_iff.1 h
  refine ⟨v, hv, ?_⟩
  split at h
  · next hr => rw [hr, Option.some.inj h]
  · cases h

theorem parse_cons_eq_some (h : parse fs p (t :: ts) = some e) :
    ∃ gs p', step fs p t = some (gs, p') ∧ parse gs p' ts = some e := by
  obtain ⟨⟨gs, p'⟩, hstep, h⟩ := Option.bind_eq_some_iff.1 h
  exact ⟨gs, p', hstep, h⟩

/-- Behind a text that can be read, every parenthesis of it is closed.  Inside of parentheses it has
no open `or`. -/
theorem hasOpenOr_append (h : parse fs p ts = some e) (k : Nat) (us : List Lexeme) :
    hasOpenOr (parens fs + k) (ts ++ us) =
      ((k == 0 && hasOpenOr (parens fs) ts) || hasOpenOr k us) := by
  induction ts generalizing fs p with
  | nil =>
      obtain ⟨v, -, hr⟩ := parse_nil_eq_some h
      have hzero : parens fs = 0 := (parens_of_reduce le_rfl hr).symm
      simp [hasOpenOr, hzero]
  | cons t ts ih =>
      obtain ⟨gs, p', hstep, hrest⟩ := parse_cons_eq_some h
      rw [List.cons_append, hasOpenOr, hasOpenOr, depth_of_step hstep, ih hrest,
        depth_parens hstep]
      cases k with
      | zero => simp [Bool.or_assoc]
      | succ k => simp

end

/-! ### In parentheses -/

section
variable {L : Nat} {fs gs : List Frame} {e : Expression} {p p' : Phase} {t : Lexeme}
  {ts : List Lexeme} (base : List Frame)

theorem reduce_append_paren (hL : 1 ≤ L) (fs : List Frame) (e : Expression) :
    reduce L (fs ++ .paren :: base) e =
      ((reduce L fs e).1 ++ .paren :: base, (reduce L fs e).2) := by
  induction fs generalizing e with
  | nil => exact reduce_of_below (below_cons hL)
  | cons f fs ih =>
      rw [List.cons_append, reduce, reduce]
      split
      · exact ih _
      · rfl

theorem insideComparison_append_paren (fs : List Frame) :
    insideComparison (fs ++ .paren :: base) = insideComparison fs := by
  cases fs with
  | nil => rfl
  | cons f fs => cases f <;> rfl

/-- What lies below a parenthesis does not matter to what stands in it. -/
theorem step_append_paren (h : step fs p t = some (gs, p')) :
    step (fs ++ .paren :: base) p t = some (gs ++ .paren :: base, p') := by
  rw [step_eq] at h ⊢
  obtain ⟨m, hm, hrun⟩ := Option.bind_eq_some_iff.1 h
  rw [hm, Option.bind_some]
  cases m with
  | stay q | enter f =>
      obtain ⟨rfl, rfl⟩ := Prod.mk.inj (Option.some.inj hrun)
      rfl
  | shift e op =>
      obtain ⟨rfl, rfl⟩ := eq_of_shift hrun
      rw [Move.run, shift_eq] at hrun ⊢
      rw [reduce_append_paren base op.leftLevel_pos, insideComparison_append_paren]
      split at hrun
      · cases hrun
      · next hinside => exact if_neg hinside
  | test e =>
      obtain ⟨rfl, rfl⟩ := Prod.mk.inj (Option.some.inj hrun)
      rw [Move.run, reduce_append_paren base (by decide)]
  | close e =>
      obtain ⟨v, hv, rfl⟩ := eq_of_close hrun
      rw [Move.run, reduce_append_paren base le_rfl, hv]
      rfl

theorem parse_append_paren (h : parse fs p ts = some e) (us : List Lexeme) :
    parse (fs ++ .paren :: base) p (ts ++ .closing :: us) = parse base (.value e) us := by
  induction ts generalizing fs p with
  | nil =>
      obtain ⟨v, hv, hr⟩ := parse_nil_eq_some h
      refine parse_closing hv ?_
      rw [reduce_append_paren base le_rfl, hr]
      rfl
  | cons t ts ih =>
      obtain ⟨gs, p', hstep, hrest⟩ := parse_cons_eq_some h
      rw [List.cons_append, parse, step_append_paren base hstep]
      exact ih hrest

/-- In parentheses, lexemes are read as they are alone. -/
theorem parse_parenthesized (h : parse [] .operand ts = some e) (us : List Lexeme) :
    parse base .operand (.opening :: ts ++ .closing :: us) = parse base (.value e) us :=
  parse_append_paren base h us

end

/-! ### Below an open `or` -/

def Expression.isDisjunction : Expression → Bool
  | binary _ .or _ => true
  | _ => false

/-- Whether the outermost frame is that of an `or`. -/
inductive BehindOr : List Frame → Prop where
  | or (l : Expression) : BehindOr [.operand l .or]
  | frame (f : Frame) {fs : List Frame} (h : BehindOr fs) : BehindOr (f :: fs)

section
variable {L : Nat} {f : Frame} {fs gs : List Frame} {e v : Expression} {p p' : Phase} {t : Lexeme}
  {ts : List Lexeme}

/-- Only an `or` or the end closes an `or`, and neither of them does inside of parentheses. -/
theorem BehindOr.after_reduce (h : BehindOr fs) (hL : 1 ≤ L)
    (hout : BinaryOperator.or.level < L ∨ Frame.paren ∈ fs) (e : Expression) :
    BehindOr (reduce L fs e).1 := by
  induction h generalizing e with
  | or l =>
      have hbelow : Below L [.operand l .or] := below_cons (hout.resolve_right (by simp))
      rw [reduce_of_below hbelow]
      exact .or l
  | frame f h ih =>
      rw [reduce]
      split
      · next hle =>
          have hf := ne_paren_of_le_level hL hle
          exact ih (hout.imp_right (List.mem_of_ne_of_mem hf.symm)) _
      · exact .frame f h

/-- Outside of parentheses an `or` closes all frames. -/
theorem reduce_outside (hL : L ≤ BinaryOperator.or.level) (hout : Frame.paren ∉ fs)
    (e : Expression) : (reduce L fs e).1 = [] := by
  induction fs generalizing e with
  | nil => rfl
  | cons f fs ih =>
      rw [List.mem_cons, not_or] at hout
      have hle : L ≤ f.level := by
        cases f with
        | paren => exact absurd rfl hout.1
        | operand l op => exact hL.trans op.or_level_le
        | _ => exact hL.trans (by decide)
      rw [reduce_cons hle, ih hout.2]

theorem BehindOr.after_step (h : BehindOr fs) (hstep : step fs p t = some (gs, p')) : BehindOr gs := by
  rw [step_eq] at hstep
  obtain ⟨m, hm, hrun⟩ := Option.bind_eq_some_iff.1 hstep
  cases m with
  | stay q =>
      obtain ⟨rfl, -⟩ := Prod.mk.inj (Option.some.inj hrun)
      exact h
  | enter f =>
      obtain ⟨rfl, -⟩ := Prod.mk.inj (Option.some.inj hrun)
      exact .frame f h
  | shift e op =>
      obtain ⟨rfl, -⟩ := eq_of_shift hrun
      by_cases hout : BinaryOperator.or.level < op.leftLevel ∨ Frame.paren ∈ fs
      · exact .frame _ (h.after_reduce op.leftLevel_pos hout e)
      · -- another `or` takes the place of this one
        rw [not_or, Nat.not_lt] at hout
        have hlt : op.level < BinaryOperator.and.level :=
          (op.level_le_leftLevel.trans hout.1).trans_lt (by decide)
        obtain rfl := op.eq_or_of_level_lt hlt
        rw [reduce_outside hout.1 hout.2]
        exact .or _
  | test e =>
      obtain ⟨rfl, -⟩ := Prod.mk.inj (Option.some.inj hrun)
      exact h.after_reduce (by decide) (.inl (by decide)) e
  | close e =>
      obtain ⟨v, hv, -⟩ := eq_of_close hrun
      have hreduce := h.after_reduce le_rfl (.inr (paren_mem_of_reduce hv)) e
      rw [hv] at hreduce
      cases hreduce with
      | frame _ h => exact h

theorem BehindOr.isDisjunction (h : BehindOr fs) (hr : reduce 1 fs v = ([], e)) :
    e.isDisjunction := by
  induction h generalizing v with
  | or l =>
      obtain ⟨-, rfl⟩ := Prod.mk.inj hr
      rfl
  | frame f h ih =>
      rw [reduce] at hr
      split at hr
      · exact ih hr
      · cases hr

/-- A text with an `or` outside of parentheses is read as an `or`. -/
theorem isDisjunction_of_parse (h : parse fs p ts = some e)
    (hor : BehindOr fs ∨ hasOpenOr (parens fs) ts) : e.isDisjunction := by
  induction ts generalizing fs p with
  | nil =>
      obtain ⟨v, -, hr⟩ := parse_nil_eq_some h
      exact (hor.resolve_right Bool.false_ne_true).isDisjunction hr
  | cons t ts ih =>
      obtain ⟨gs, p', hstep, hrest⟩ := parse_cons_eq_some h
      refine ih hrest ?_
      rcases hor with hor | hor
      · exact .inl (hor.after_step hstep)
      · rw [hasOpenOr, Bool.or_eq_true, Bool.and_eq_true, beq_iff_eq, beq_iff_eq,
          depth_parens hstep] at hor
        refine hor.imp_left fun ⟨hzero, ht⟩ => ?_
        -- the `or` has closed everything in front of it
        have hout : Frame.paren ∉ fs := by
          rw [mem_iff_parens_pos, hzero]
          exact Nat.lt_irrefl 0
        rw [step_eq] at hstep
        obtain ⟨m, hm, hrun⟩ := Option.bind_eq_some_iff.1 hstep
        obtain ⟨l, rfl⟩ := move_or hm ht
        obtain ⟨rfl, -⟩ := eq_of_shift hrun
        rw [reduce_outside (by decide) hout]
        exact .or _

end

end SqlTree
