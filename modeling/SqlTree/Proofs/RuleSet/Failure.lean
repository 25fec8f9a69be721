import SqlTree.Proofs.RuleSet.Calls

/-!
# Rule sets — how a transformation fails

A transformation goes through the places of the original tree in post-order, and ends at the first
one that fails (`FirstFailure`): a rule called there fails, or returns a node that may not stand
there.

**Failure** (`transform_failure`).  A transformation fails exactly when some place does, with the
error of the first such place, and no rule is called after the one called there.  Rules that never
fail and keep the kind of what they are given make no transformation fail.
-/

namespace SqlTree

/-- `p` is the first place of the tree that fails, behind the places of `before`. -/
structure FirstFailure (rules : RuleSet) (n : Node) (before : List Place) (p : Place)
    (e : QueryError) : Prop where
  reached : ∃ after, n.walk = before ++ p :: after
  passed : ∀ q ∈ before, q.Passes rules
  fails : p.FailsWith rules e

/-- The rules never fail, and return nodes of the kind they are given. -/
def RuleSet.KeepsKinds (rules : RuleSet) : Prop :=
  ∀ n rule, rules.rule? n.kind = some rule → ∃ m, rule n = .ok m ∧ m.kind = n.kind

/-- There is one way to split a list at the first of its elements with a property. -/
theorem eq_of_split_first {α : Type} {P : α → Prop} {xs xs' ys ys' : List α} {a a' : α}
    (h : xs ++ a :: ys = xs' ++ a' :: ys') (hxs : ∀ x ∈ xs, ¬ P x) (ha : P a)
    (hxs' : ∀ x ∈ xs', ¬ P x) (ha' : P a') : xs = xs' ∧ a = a' := by
  induction xs generalizing xs' with
  | nil =>
    cases xs' with
    | nil => exact ⟨rfl, (List.cons.inj h).1⟩
    | cons x _ =>
      obtain rfl : a = x := (List.cons.inj h).1
      exact absurd ha (hxs' a List.mem_cons_self)
  | cons x xs ih =>
    cases xs' with
    | nil =>
      obtain rfl : x = a' := (List.cons.inj h).1
      exact absurd ha' (hxs x List.mem_cons_self)
    | cons x' xs' =>
      obtain ⟨rfl, htail⟩ := List.cons.inj h
      obtain ⟨rfl, rfl⟩ := ih htail (fun y hy => hxs y (List.mem_cons_of_mem x hy))
        fun y hy => hxs' y (List.mem_cons_of_mem x hy)
      exact ⟨rfl, rfl⟩

section
variable {rules : RuleSet} {n : Node}

theorem Place.FailsWith.not_passes {p : Place} {e : QueryError} (h : p.FailsWith rules e) :
    ¬ p.Passes rules := fun hp => hp e h

theorem FirstFailure.unique {before before' : List Place} {p p' : Place} {e e' : QueryError}
    (h : FirstFailure rules n before p e) (h' : FirstFailure rules n before' p' e') :
    before = before' ∧ p = p' ∧ e = e' := by
  obtain ⟨after, hw⟩ := h.reached
  obtain ⟨after', hw'⟩ := h'.reached
  obtain ⟨rfl, rfl⟩ := eq_of_split_first (P := fun q => ¬ q.Passes rules) (hw.symm.trans hw')
    (fun q hq => not_not.2 (h.passed q hq)) h.fails.not_passes
    (fun q hq => not_not.2 (h'.passed q hq)) h'.fails.not_passes
  exact ⟨rfl, rfl, h.fails.unique h'.fails⟩

theorem exists_firstFailure {e : QueryError} (h : rules.transform n = .error e) :
    ∃ before p, FirstFailure rules n before p e ∧
      CallsFor rules (before ++ [p]) (n.transform rules).log := by
  obtain ⟨before, p, after, hw, hpassed, hfails, hcalls⟩ := n.walked.of_error h
  exact ⟨before, p, ⟨⟨after, hw⟩, hpassed, hfails⟩, hcalls⟩

theorem FirstFailure.transform_eq {before : List Place} {p : Place} {e : QueryError}
    (h : FirstFailure rules n before p e) :
    rules.transform n = .error e ∧ CallsFor rules (before ++ [p]) (n.transform rules).log := by
  cases hr : rules.transform n with
  | ok m =>
    obtain ⟨after, hw⟩ := h.reached
    have hpass : p.Passes rules := (n.walked.of_ok hr).1 p (by rw [hw]; simp)
    exact absurd hpass h.fails.not_passes
  | error e' =>
    obtain ⟨before', p', h', hcalls⟩ := exists_firstFailure hr
    obtain ⟨rfl, rfl, rfl⟩ := h.unique h'
    exact ⟨rfl, hcalls⟩

theorem transform_fails_iff :
    (∃ e, rules.transform n = .error e) ↔ ∃ p ∈ n.walk, ∃ e, p.FailsWith rules e := by
  constructor
  · rintro ⟨e, he⟩
    obtain ⟨before, p, h, -⟩ := exists_firstFailure he
    obtain ⟨after, hw⟩ := h.reached
    exact ⟨p, by rw [hw]; simp, e, h.fails⟩
  · rintro ⟨p, hp, e, he⟩
    cases hr : rules.transform n with
    | ok m => exact absurd he ((n.walked.of_ok hr).1 p hp e)
    | error e' => exact ⟨e', rfl⟩

/-- Where every node may stand, rules that keep kinds do not fail. -/
theorem RuleSet.KeepsKinds.passes (hk : rules.KeepsKinds) {p : Place} (hp : p.Accepts p.node) :
    p.Passes rules := by
  intro e he
  cases he with
  | rule hh hf hc =>
    obtain ⟨m, hm, -⟩ := hk _ _ hf
    rw [hc] at hm
    cases hm
  | slot hh hf hr ht hmis =>
    obtain ⟨m, hm, hkind⟩ := hk _ _ hf
    rw [hr] at hm
    cases hm
    exact hmis (hkind.trans (hh.kind_eq.trans (hp _ ht)))

theorem RuleSet.KeepsKinds.exists_transform (hk : rules.KeepsKinds) (n : Node) :
    ∃ m, rules.transform n = .ok m := by
  cases hr : rules.transform n with
  | ok m => exact ⟨m, rfl⟩
  | error e =>
    obtain ⟨before, p, h, -⟩ := exists_firstFailure hr
    obtain ⟨after, hw⟩ := h.reached
    have hp : p.Accepts p.node := Node.accepts_of_mem_walk p (by rw [hw]; simp)
    exact absurd (hk.passes hp) h.fails.not_passes

end

/-- **Failure.**  A transformation fails exactly when some place of the original tree fails.  Its
error is that of the first such place in post-order: the failure of a rule, with the kind of the
node handed to it, or a node of the wrong kind in a slot, with its kind and the slot.  The calls
made are those for the places up to that one.  Rules that keep kinds make no transformation
fail. -/
theorem transform_failure (rules : RuleSet) (n : Node) :
    ((∃ e, rules.transform n = .error e) ↔ ∃ p ∈ n.walk, ∃ e, p.FailsWith rules e) ∧
    (∀ e, rules.transform n = .error e ↔ ∃ before p, FirstFailure rules n before p e) ∧
    (∀ before p e, FirstFailure rules n before p e →
      CallsFor rules (before ++ [p]) (n.transform rules).log) ∧
    (rules.KeepsKinds → ∃ m, rules.transform n = .ok m) := by
  refine ⟨transform_fails_iff, fun e => ⟨fun h => ?_, fun ⟨_, _, h⟩ => h.transform_eq.1⟩,
    fun _ _ _ h => h.transform_eq.2, fun hk => hk.exists_transform n⟩
  obtain ⟨before, p, h, -⟩ := exists_firstFailure h
  exact ⟨before, p, h⟩

/-- Rules that put a parameter in the place of every name and accept no column. -/
def misplacingRules : RuleSet :=
  RuleSet.ofList
    [(.identifier, fun _ => .ok (.parameter .null)),
      (.columnReference, fun _ => .error "no column")]

/-- The name of a column is no place for a parameter, and the rule for columns is not reached. -/
theorem misplacedName_failure :
    ∃ before p,
      FirstFailure misplacingRules (.column { name := "id" }) before p
        (.unsupportedNodeKind .parameter .columnName) ∧
      CallsFor misplacingRules (before ++ [p])
        ((Node.column { name := "id" }).transform misplacingRules).log ∧
      ((Node.column { name := "id" }).transform misplacingRules).log =
        [.identifier { name := "id" }] := by
  have h : misplacingRules.transform (.column { name := "id" }) =
      .error (.unsupportedNodeKind .parameter .columnName) := rfl
  obtain ⟨-, hfirst, hcalls, -⟩ := transform_failure misplacingRules (.column { name := "id" })
  obtain ⟨before, p, hp⟩ := (hfirst _).1 h
  exact ⟨before, p, hp, hcalls before p _ hp, rfl⟩

end SqlTree
