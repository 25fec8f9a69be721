import SqlTree.Proofs.Reading.Condition
import SqlTree.Proofs.Reading.Frames

/-!
# Reading — conjuncts

How a text is read behind `and`.  Behind `q and` the frames are those that the text has alone, above
that of the `and`; or the `and` has been closed, and an operand that the text has alone has `q` in
front of it (`Behind`).  Every lexeme keeps the two runs together, except for an `or` outside of
parentheses (`Behind.after_step`).  So a text without one is read behind `q and` as the conjunction of `q`
and what it is read as alone, up to regrouping, and an `and` behind it takes that in whole
(`ReadsAsConjunct`).

**Conjunctions** (`parse_conjunction_iff`).  Several texts with `and` between them are read as the
conjunction of what they are read as alone exactly if none has an `or` outside of parentheses.
-/

namespace SqlTree

abbrev Expression.and (l r : Expression) : Expression := .binary l .and r

/-- The frames `fs` of a text that is read alone, and its frames behind `q and`. -/
inductive Behind (q : Expression) : List Frame → List Frame → Prop where
  | start : Behind q [] [.operand q .and]
  | conjunct {x y : Expression} (h : Reassociated y (q.and x)) :
      Behind q [.operand x .and] [.operand y .and]
  /-- Frames that bind more loosely than `and` are in parentheses. -/
  | frame {fs fs' : List Frame} (f : Frame)
      (hf : f.level < BinaryOperator.and.level → Frame.paren ∈ f :: fs) (h : Behind q fs fs') :
      Behind q (f :: fs) (f :: fs')

section
variable {L : Nat} {q e v : Expression} {f : Frame} {fs fs' gs : List Frame} {p p' : Phase}
  {t : Lexeme} {ts us : List Lexeme}

theorem BinaryOperator.eq_and_or_eq_or (op : BinaryOperator)
    (h : op.leftLevel ≤ BinaryOperator.and.level) : op = .and ∨ op = .or := by
  cases op with
  | and => exact .inl rfl
  | or => exact .inr rfl
  | _ => exact absurd h (by decide)

/-- The two runs close the same frames, if these bind more tightly than `and` or there is a
parenthesis around them. -/
theorem Behind.after_reduce (h : Behind q fs fs') (hL : 1 ≤ L)
    (hin : BinaryOperator.and.level < L ∨ Frame.paren ∈ fs) (e : Expression) :
    Behind q (reduce L fs e).1 (reduce L fs' e).1 ∧
      (reduce L fs' e).2 = (reduce L fs e).2 := by
  induction h generalizing e with
  | start =>
      have hbelow : Below L [.operand q .and] := below_cons (hin.resolve_right (by simp))
      rw [reduce_of_below hbelow]
      exact ⟨.start, rfl⟩
  | @conjunct x y h =>
      have hlt := hin.resolve_right (by simp)
      have hbelow : ∀ z, Below L [.operand z .and] := fun z => below_cons hlt
      rw [reduce_of_below (hbelow x), reduce_of_below (hbelow y)]
      exact ⟨.conjunct h, rfl⟩
  | frame f hf h ih =>
      rw [reduce, reduce]
      split
      · next hle =>
          have hne := ne_paren_of_le_level hL hle
          exact ih (hin.imp_right (List.mem_of_ne_of_mem hne.symm)) _
      · exact ⟨.frame f hf h, rfl⟩

/-- Outside of parentheses an `and` closes all frames. -/
theorem Behind.reduce_outside (h : Behind q fs fs') (hout : Frame.paren ∉ fs) (v : Expression) :
    ∃ e e', Reassociated e' (q.and e) ∧ ∀ L ≤ BinaryOperator.and.level,
      reduce L fs v = ([], e) ∧ reduce L fs' v = ([], e') := by
  induction h generalizing v with
  | start => exact ⟨v, q.and v, .refl _, fun L hL => ⟨rfl, reduce_cons hL⟩⟩
  | @conjunct x y h =>
      exact ⟨x.and v, y.and v, .trans (.binary .and h (.refl v)) (.assoc (.inl rfl) q x v),
        fun L hL => ⟨reduce_cons hL, reduce_cons hL⟩⟩
  | frame f hf h ih =>
      have hle : BinaryOperator.and.level ≤ f.level := Nat.not_lt.1 fun hlt => hout (hf hlt)
      obtain ⟨e, e', he, hr⟩ := ih (fun hmem => hout (List.mem_cons_of_mem _ hmem)) (f.close v)
      refine ⟨e, e', he, fun L hL => ?_⟩
      rw [reduce_cons (hL.trans hle), reduce_cons (hL.trans hle)]
      exact hr L hL

theorem Behind.insideComparison_eq (h : Behind q fs fs') :
    insideComparison fs' = insideComparison fs := by
  cases h with
  | start | conjunct _ => rfl
  | frame f => cases f <;> rfl

theorem Behind.after_shift {op : BinaryOperator} (h : Behind q fs fs')
    (hor : op = .or → Frame.paren ∈ fs) (hs : shift fs e op = some (gs, p)) :
    ∃ gs', shift fs' e op = some (gs', p) ∧ Behind q gs gs' := by
  obtain ⟨rfl, rfl⟩ := eq_of_shift hs
  by_cases hin : BinaryOperator.and.level < op.leftLevel ∨ Frame.paren ∈ fs
  · obtain ⟨hb, he⟩ := h.after_reduce op.leftLevel_pos hin e
    have hloose : op.level < BinaryOperator.and.level →
        Frame.paren ∈ (reduce op.leftLevel fs e).1 := fun hlt =>
      (paren_mem_reduce_iff op.leftLevel_pos).2 (hor (op.eq_or_of_level_lt hlt))
    rw [shift_eq] at hs ⊢
    split at hs
    · cases hs
    · next hc =>
        rw [hb.insideComparison_eq, he, if_neg hc]
        exact ⟨_, rfl, .frame _ (fun hlt => List.mem_cons_of_mem _ (hloose hlt)) hb⟩
  · -- the `and` in front is closed as well
    rw [not_or, Nat.not_lt] at hin
    obtain rfl := (op.eq_and_or_eq_or hin.1).resolve_right fun h => hin.2 (hor h)
    obtain ⟨x, y, hxy, hr⟩ := h.reduce_outside hin.2 e
    obtain ⟨hx, hy⟩ := hr _ hin.1
    rw [shift_eq, hx, hy]
    exact ⟨_, rfl, .conjunct hxy⟩

/-- A parenthesis that is closed is the same one in the two runs. -/
theorem Behind.after_close (h : Behind q fs fs') (hv : reduce 1 fs e = (.paren :: gs, v)) :
    ∃ gs', reduce 1 fs' e = (.paren :: gs', v) ∧ Behind q gs gs' := by
  obtain ⟨hb, he⟩ := h.after_reduce le_rfl (.inr (paren_mem_of_reduce hv)) e
  rw [hv] at hb he
  cases hr : reduce 1 fs' e with
  | mk gs₀ v' =>
      rw [hr] at hb he
      cases hb with
      | frame _ _ hb => exact ⟨_, congrArg (Prod.mk _) he, hb⟩

/-- Every lexeme but an `or` outside of parentheses keeps the two runs together. -/
theorem Behind.after_step (h : Behind q fs fs') (hor : t = .operator .or → Frame.paren ∈ fs)
    (hs : step fs p t = some (gs, p')) :
    ∃ gs', step fs' p t = some (gs', p') ∧ Behind q gs gs' := by
  rw [step_eq] at hs ⊢
  obtain ⟨m, hm, hrun⟩ := Option.bind_eq_some_iff.1 hs
  rw [hm, Option.bind_some]
  cases m with
  | stay r =>
      obtain ⟨rfl, rfl⟩ := Prod.mk.inj (Option.some.inj hrun)
      exact ⟨fs', rfl, h⟩
  | enter f =>
      obtain ⟨rfl, rfl⟩ := Prod.mk.inj (Option.some.inj hrun)
      refine ⟨f :: fs', rfl, .frame f (fun hlt => ?_) h⟩
      rcases eq_of_enter hm with rfl | rfl | rfl
      · exact List.mem_cons_self
      · exact absurd hlt (by decide)
      · exact absurd hlt (by decide)
  | shift e op => exact h.after_shift (fun hop => hor (eq_or_of_move hm hop)) hrun
  | test e =>
      obtain ⟨rfl, rfl⟩ := Prod.mk.inj (Option.some.inj hrun)
      obtain ⟨hb, he⟩ := h.after_reduce (L := nullTestLevel) (by decide) (.inl (by decide)) e
      rw [Move.run, he]
      exact ⟨_, rfl, hb⟩
  | close e =>
      obtain ⟨v, hv, rfl⟩ := eq_of_close hrun
      obtain ⟨gs', hv', hb⟩ := h.after_close hv
      exact ⟨gs', by rw [Move.run, hv'], hb⟩

/-- Behind frames, lexemes are read as an expression that an `and` or the end takes in whole. -/
def ReadsAsConjunct (fs : List Frame) (ts : List Lexeme) (r : Expression) : Prop :=
  ∃ gs p v, p.value? = some v ∧ (∀ us, parse fs .operand (ts ++ us) = parse gs p us) ∧
    ∀ L ≤ BinaryOperator.and.level, reduce L gs v = ([], r)

theorem ReadsAsConjunct.parse_eq (h : ReadsAsConjunct fs ts e) :
    parse fs .operand ts = some e := by
  obtain ⟨gs, p, v, hv, hparse, hr⟩ := h
  rw [← List.append_nil ts, hparse, parse_end hv (hr 1 (by decide))]

theorem ReadsAsConjunct.parse_and (h : ReadsAsConjunct fs ts e) (us : List Lexeme) :
    parse fs .operand (ts ++ .operator .and :: us) =
      parse [.operand e .and] .operand us := by
  obtain ⟨gs, p, v, hv, hparse, hr⟩ := h
  have hand : parse gs p (BinaryOperator.and.lexemes ++ us) = _ := parse_operator hv .and
  rw [shift_of_not_isComparison (by decide), hr _ le_rfl] at hand
  exact (hparse _).trans hand

/-- Two runs over a text without an open `or`, the second one behind `q and`. -/
theorem Behind.run (h : Behind q fs fs') (hparse : parse fs p ts = some e)
    (hor : hasOpenOr (parens fs) ts = false) :
    ∃ gs gs' p' v, Behind q gs gs' ∧ p'.value? = some v ∧ reduce 1 gs v = ([], e) ∧
      ∀ us, parse fs p (ts ++ us) = parse gs p' us ∧ parse fs' p (ts ++ us) = parse gs' p' us := by
  induction ts generalizing fs fs' p with
  | nil =>
      obtain ⟨v, hv, hr⟩ := parse_nil_eq_some hparse
      exact ⟨fs, fs', p, v, h, hv, hr, fun us => ⟨rfl, rfl⟩⟩
  | cons t ts ih =>
      obtain ⟨gs, p', hstep, hrest⟩ := parse_cons_eq_some hparse
      rw [hasOpenOr, Bool.or_eq_false_iff, depth_parens hstep] at hor
      have hpar : t = .operator .or → Frame.paren ∈ fs := by
        rintro rfl
        simpa [mem_iff_parens_pos, Nat.pos_iff_ne_zero] using hor.1
      obtain ⟨gs', hstep', hb⟩ := h.after_step hpar hstep
      obtain ⟨hs, hs', p'', v, hb', hv, hr, hall⟩ := ih hb hrest hor.2
      refine ⟨hs, hs', p'', v, hb', hv, hr, fun us => ?_⟩
      rw [List.cons_append, parse, parse, hstep, hstep']
      exact hall us

/-- A text without an open `or` is read behind `q and` as the conjunction of `q` and what it is read
as alone. -/
theorem readsAsConjunct_of_parse (h : parse [] .operand ts = some e)
    (hor : hasOpenOr 0 ts = false) (q : Expression) :
    ReadsAsConjunct [] ts e ∧
      ∃ r, ReadsAsConjunct [.operand q .and] ts r ∧ Reassociated r (q.and e) := by
  obtain ⟨gs, gs', p, v, hb, hv, hr, hall⟩ := Behind.start (q := q) |>.run h hor
  have hout : Frame.paren ∉ gs := by
    rw [mem_iff_parens_pos, ← parens_of_reduce le_rfl hr]
    exact Nat.lt_irrefl 0
  obtain ⟨x, r, hxr, hclose⟩ := hb.reduce_outside hout v
  obtain rfl : x = e := congrArg Prod.snd ((hclose 1 (by decide)).1.symm.trans hr)
  exact ⟨⟨gs, p, v, hv, fun us => (hall us).1, fun L hL => (hclose L hL).1⟩,
    r, ⟨gs', p, v, hv, fun us => (hall us).2, fun L hL => (hclose L hL).2⟩, hxr⟩

end

/-! ### Conjunctions -/

/-- The lexemes of texts with `and` between them. -/
def joinedByAnd (tss : List (List Lexeme)) : List Lexeme := [.operator .and].intercalate tss

theorem Reassociated.isDisjunction_eq {e e' : Expression} (h : Reassociated e e') :
    e.isDisjunction = e'.isDisjunction := by
  induction h with
  | refl | not | negate | isNull => rfl
  | symm _ ih => exact ih.symm
  | trans _ _ ih ih' => exact ih.trans ih'
  | @assoc op => cases op <;> rfl
  | binary op => cases op <;> rfl

theorem Reassociated.foldl_and {x y : Expression} (h : Reassociated x y) (es : List Expression) :
    Reassociated (es.foldl .and x) (es.foldl .and y) := by
  induction es generalizing x y with
  | nil => exact h
  | cons e es ih => exact ih (.binary .and h (.refl e))

theorem isDisjunction_foldl_and (l r : Expression) (es : List Expression) :
    (es.foldl .and (l.and r)).isDisjunction = false := by
  induction es generalizing l r with
  | nil => rfl
  | cons e es ih => exact ih (l.and r) e

/-- Lexemes that are read as an expression when they stand alone. -/
abbrev ReadsAs (ts : List Lexeme) (e : Expression) : Prop := parse [] .operand ts = some e

section
variable {ts : List Lexeme} {e : Expression} {tss : List (List Lexeme)} {es : List Expression}

theorem joinedByAnd_cons_cons (ts us : List Lexeme) (tss : List (List Lexeme)) :
    joinedByAnd (ts :: us :: tss) = ts ++ .operator .and :: joinedByAnd (us :: tss) := by
  rw [joinedByAnd, List.intercalate_cons_cons, List.append_assoc]
  rfl

theorem joinedByAnd_singleton : joinedByAnd [ts] = ts := List.intercalate_singleton

/-- Texts behind `q and`. -/
theorem parse_behind_and (h : List.Forall₂ ReadsAs (ts :: tss) (e :: es))
    (hor : ∀ us ∈ ts :: tss, hasOpenOr 0 us = false) (q : Expression) :
    ∃ r, parse [.operand q .and] .operand (joinedByAnd (ts :: tss)) = some r ∧
      Reassociated r ((e :: es).foldl .and q) := by
  induction tss generalizing ts e es q with
  | nil =>
      obtain ⟨he, hes⟩ := List.forall₂_cons.1 h
      cases hes
      obtain ⟨-, r, hr, hre⟩ := readsAsConjunct_of_parse he (hor ts List.mem_cons_self) q
      exact ⟨r, by rw [joinedByAnd_singleton, hr.parse_eq], hre⟩
  | cons us tss ih =>
      obtain ⟨he, hes⟩ := List.forall₂_cons.1 h
      obtain ⟨-, x, hx, hxe⟩ := readsAsConjunct_of_parse he (hor ts List.mem_cons_self) q
      cases hes with
      | cons hu hus =>
          -- the conjunction so far is in front of the rest
          obtain ⟨r, hr, hre⟩ := ih (.cons hu hus)
            (fun vs hvs => hor vs (List.mem_cons_of_mem _ hvs)) x
          refine ⟨r, ?_, hre.trans (hxe.foldl_and _)⟩
          rw [joinedByAnd_cons_cons, hx.parse_and, hr]

theorem parse_conjunction (h : List.Forall₂ ReadsAs (ts :: tss) (e :: es))
    (hor : ∀ us ∈ ts :: tss, hasOpenOr 0 us = false) :
    ∃ r, parse [] .operand (joinedByAnd (ts :: tss)) = some r ∧
      Reassociated r (es.foldl .and e) := by
  obtain ⟨he, hes⟩ := List.forall₂_cons.1 h
  cases hes with
  | nil => exact ⟨e, by rw [joinedByAnd_singleton, he], .refl e⟩
  | cons hu hus =>
      obtain ⟨hfirst, -⟩ := readsAsConjunct_of_parse he (hor ts List.mem_cons_self) e
      obtain ⟨r, hr, hre⟩ := parse_behind_and (.cons hu hus)
        (fun vs hvs => hor vs (List.mem_cons_of_mem _ hvs)) e
      exact ⟨r, by rw [joinedByAnd_cons_cons, hfirst.parse_and, hr], hre⟩

theorem hasOpenOr_joinedByAnd (h : List.Forall₂ ReadsAs tss es) :
    hasOpenOr 0 (joinedByAnd tss) = tss.any (hasOpenOr 0) := by
  induction h with
  | nil => rfl
  | @cons ts e tss es he hes ih =>
      have happend := fun us => hasOpenOr_append he 0 us
      cases tss with
      | nil => simp [joinedByAnd_singleton]
      | cons us tss =>
          rw [joinedByAnd_cons_cons, List.any_cons, ← ih]
          exact happend _

/-- **Conjunctions.**  Several texts with `and` between them are read as the conjunction of what
they are read as alone exactly if none has an `or` outside of parentheses. -/
theorem parse_conjunction_iff (h : List.Forall₂ ReadsAs (ts :: tss) (e :: es)) :
    (∃ r, parse [] .operand (joinedByAnd (ts :: tss)) = some r ∧
        Reassociated r (es.foldl .and e)) ↔
      tss = [] ∨ ∀ us ∈ ts :: tss, hasOpenOr 0 us = false := by
  constructor
  · rintro ⟨r, hr, hre⟩
    obtain ⟨-, hes⟩ := List.forall₂_cons.1 h
    cases hes with
    | nil => exact .inl rfl
    | cons _ _ =>
        refine .inr fun us hus => Bool.eq_false_iff.2 fun hor => ?_
        have hany := hasOpenOr_joinedByAnd h
        rw [List.any_eq_true.2 ⟨us, hus, hor⟩] at hany
        have hroot := isDisjunction_of_parse hr (.inr hany)
        rw [hre.isDisjunction_eq, List.foldl_cons, isDisjunction_foldl_and] at hroot
        exact Bool.false_ne_true hroot
  · rintro (rfl | hor)
    · obtain ⟨he, hes⟩ := List.forall₂_cons.1 h
      cases hes
      exact ⟨e, by rw [joinedByAnd_singleton, he], .refl e⟩
    · exact parse_conjunction h hor

end

end SqlTree
