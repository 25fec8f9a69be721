import SqlTree.Node.Builder
import SqlTree.Proofs.Reading.Regrouping

/-!
# Reading — conditions

Whether the text of a condition is read as the condition: a tree of comparisons, `and`, `or`, and
the operators of one operand.  Neither `a and (b and c)` nor `(a and b) and c` has parentheses, so
this can hold only up to regrouping these (`Reassociated`).

The operand of a `not` or of a null test has parentheses where it needs them, but a comparison puts
none around a test that is its operand.  So `not a = b` is written for a comparison whose left
operand is `not a` and read as the `not` of a comparison, and `a = b is null` in the same way
(`Expression.hasLooseTest`).  Each of these moves a test out of a comparison.  Regrouping `and` and
`or` moves none, so `Expression.testWeight`, which counts for every comparison the tests inside it,
tells the two apart.

**Conditions** (`condition_reading`).  The text of a condition is read as the condition, up to
regrouping, exactly if no comparison has a loose test.
-/

namespace SqlTree
open Expression

/-- Equality up to the grouping of `and` with `and` and of `or` with `or`. -/
inductive Reassociated : Expression → Expression → Prop where
  | refl (e : Expression) : Reassociated e e
  | symm {e e' : Expression} (h : Reassociated e e') : Reassociated e' e
  | trans {e e' e'' : Expression} (h : Reassociated e e') (h' : Reassociated e' e'') :
      Reassociated e e''
  | assoc {op : BinaryOperator} (h : op = .and ∨ op = .or) (x y z : Expression) :
      Reassociated (.binary (.binary x op y) op z) (.binary x op (.binary y op z))
  | binary {l l' r r' : Expression} (op : BinaryOperator) (hl : Reassociated l l')
      (hr : Reassociated r r') : Reassociated (.binary l op r) (.binary l' op r')
  | not {e e' : Expression} (h : Reassociated e e') : Reassociated (.not e) (.not e')
  | negate {e e' : Expression} (h : Reassociated e e') : Reassociated (.negate e) (.negate e')
  | isNull {e e' : Expression} (negated : Bool) (h : Reassociated e e') :
      Reassociated (.isNull negated e) (.isNull negated e')

namespace Expression

/-- Whether atoms are combined by comparisons, `and`, `or` and the operators of one operand. -/
def isCondition : Expression → Bool
  | atom _ => true
  | not e | negate e | isNull _ e => e.isCondition
  | binary l op r =>
    (op.isComparison || op == .and || op == .or) && l.isCondition && r.isCondition

/-- Whether some comparison has a `not` on its left or a null test on its right. -/
def hasLooseTest : Expression → Bool
  | atom _ => false
  | not e | negate e | isNull _ e => e.hasLooseTest
  | binary l op r =>
    l.hasLooseTest || r.hasLooseTest || (op.isComparison && (l.isNot || r.isNullTest))

/-- How many tests there are. -/
def tests : Expression → Nat
  | atom _ => 0
  | negate e => e.tests
  | not e | isNull _ e => e.tests + 1
  | binary l _ r => l.tests + r.tests

/-- How many tests there are inside comparisons, once for each comparison around them. -/
def testWeight : Expression → Nat
  | atom _ => 0
  | not e | negate e | isNull _ e => e.testWeight
  | binary l op r =>
    l.testWeight + r.testWeight + if op.isComparison then l.tests + r.tests else 0

end Expression

section
variable {e l r : Expression} {op : BinaryOperator} {q : Pending}

theorem Expression.isCondition_binary :
    (binary l op r).isCondition ↔
      (op.isComparison ∨ op = .and ∨ op = .or) ∧ l.isCondition ∧ r.isCondition := by
  simp [isCondition, and_assoc, or_assoc]

theorem not_isComparison_of_logical (h : op = .and ∨ op = .or) : ¬ op.isComparison := by
  rcases h with rfl | rfl <;> decide

theorem Expression.tight_of_isCondition (h : e.isCondition) : e.Tight := by
  induction e with
  | atom _ => trivial
  | not e ih | negate e ih | isNull _ e ih => exact ih h
  | binary l op r ihl ihr =>
      obtain ⟨hop, hl, hr⟩ := isCondition_binary.mp h
      refine ⟨ihl hl, ihr hr, hop.imp_right fun hop => ?_⟩
      have hcmp := not_isComparison_of_logical hop
      have hlevel : op.level ≤ 7 := by rcases hop with rfl | rfl <;> decide
      exact ⟨(parens_or_level_le hcmp fun _ => hlevel).1,
        (parens_or_level_le hcmp fun _ => hlevel).2⟩

/-! ### Where the grouping is kept -/

theorem Reassociated.joined {e e' : Expression} (h : Reassociated e e') :
    ∀ q : Pending, Reassociated (joined e q) (joined e' q)
  | none => h
  | some (x, op) => .binary op (.refl x) h

/-- What is pending in front of a chain of `and` or of `or`. -/
def Logical (q : Pending) (e : Expression) : Prop :=
  ∀ x o, q = some (x, o) → (o = .and ∨ o = .or) ∧ o.level = e.level

theorem logical_none : Logical none e := fun _ _ h => by cases h

theorem Logical.binary_joined (h : Logical q (.binary l op r)) (hcmp : ¬ op.isComparison)
    (hop : op = .and ∨ op = .or) :
    Reassociated (.binary (joined l q) op r) (joined (.binary l op r) q) := by
  cases q with
  | none => exact .refl _
  | some x =>
      obtain ⟨ho, hlevel⟩ := h x.1 x.2 rfl
      rw [level_binary hcmp] at hlevel
      have hsame : x.2 = op := by
        rcases ho with ho | ho <;> rw [ho] at hlevel ⊢ <;> rcases hop with rfl | rfl
        · rfl
        · cases hlevel
        · cases hlevel
        · rfl
      rw [SqlTree.joined, SqlTree.joined, hsame]
      exact .assoc hop x.1 l r

/-- Without a loose test, an expression is read as it is, up to regrouping. -/
theorem reassociated_reread (hc : e.isCondition) (hloose : ¬ e.hasLooseTest) (hq : Logical q e) :
    Reassociated (e.reread q) (joined e q) := by
  induction e generalizing q with
  | atom a => exact .refl _
  | not e ih => exact (Reassociated.not (ih hc hloose logical_none)).joined q
  | negate e ih => exact (Reassociated.negate (ih hc hloose logical_none)).joined q
  | isNull negated e ih =>
      exact (Reassociated.isNull negated (ih hc hloose logical_none)).joined q
  | binary l op r ihl ihr =>
      obtain ⟨hop, hl, hr⟩ := isCondition_binary.mp hc
      simp only [hasLooseTest, Bool.or_eq_true, Bool.and_eq_true, not_or, not_and] at hloose
      obtain ⟨⟨hll, hlr⟩, hside⟩ := hloose
      have hleft₀ := ihl hl hll logical_none
      have hright₀ := ihr hr hlr logical_none
      by_cases hcmp : op.isComparison
      · -- both operands are read whole, for neither is a loose test
        have hlevel : (Expression.binary l op r).level = 7 := if_pos hcmp
        obtain rfl := pending_eq_none (.inl hlevel) fun x o h => (hq x o h).2
        obtain ⟨hnot, hnull⟩ := hside hcmp
        rw [Bool.not_eq_true] at hnot hnull
        rw [reread, if_pos hcmp, hnot, hnull]
        exact .binary op hleft₀ hright₀
      · have hlogical := hop.resolve_left hcmp
        have hlevel := level_binary (l := l) (r := r) hcmp
        have hleft : Reassociated (leftPart op q l) (joined l q) := by
          by_cases h : l.level = op.level
          · rw [leftPart, if_pos h]
            refine ihl hl hll fun x o hx => ?_
            obtain ⟨ho, hlo⟩ := hq x o hx
            exact ⟨ho, hlo.trans (hlevel.trans h.symm)⟩
          · rw [leftPart, if_neg h]
            exact hleft₀.joined q
        refine .trans ?_ (hq.binary_joined hcmp hlogical)
        by_cases h : Continues op r
        · -- the right operand goes on from the left one
          rw [reread_of_continues hcmp h]
          refine .trans (ihr hr hlr fun x o hx => ?_) (.binary op hleft (.refl r))
          obtain ⟨rfl, rfl⟩ := Prod.mk.inj (Option.some.inj hx)
          exact ⟨hlogical, h.1.symm⟩
        · rw [reread_of_not_continues hcmp h]
          exact .binary op hleft hright₀

/-! ### Where the grouping is lost -/

theorem Reassociated.tests_eq {e e' : Expression} (h : Reassociated e e') : e.tests = e'.tests := by
  induction h with
  | refl => rfl
  | symm _ ih => exact ih.symm
  | trans _ _ ih ih' => exact ih.trans ih'
  | assoc _ x y z => exact Nat.add_assoc _ _ _
  | binary op _ _ ihl ihr => rw [tests, tests, ihl, ihr]
  | not _ ih | isNull _ _ ih => exact congrArg (· + 1) ih
  | negate _ ih => exact ih

theorem testWeight_binary (hcmp : ¬ op.isComparison) :
    (Expression.binary l op r).testWeight = l.testWeight + r.testWeight := by
  rw [testWeight, if_neg hcmp, Nat.add_zero]

theorem testWeight_comparison (hcmp : op.isComparison) :
    (Expression.binary l op r).testWeight = l.testWeight + r.testWeight + (l.tests + r.tests) := by
  rw [testWeight, if_pos hcmp]

theorem Reassociated.testWeight_eq {e e' : Expression} (h : Reassociated e e') :
    e.testWeight = e'.testWeight := by
  induction h with
  | refl => rfl
  | symm _ ih => exact ih.symm
  | trans _ _ ih ih' => exact ih.trans ih'
  | assoc hop x y z =>
      have hcmp : ¬ _ := not_isComparison_of_logical hop
      rw [testWeight_binary hcmp, testWeight_binary hcmp, testWeight_binary hcmp,
        testWeight_binary hcmp, Nat.add_assoc]
  | binary op hl hr ihl ihr => rw [testWeight, testWeight, ihl, ihr, hl.tests_eq, hr.tests_eq]
  | not _ ih | isNull _ _ ih | negate _ ih => exact ih

/-- A test that is lifted over `f` is no longer counted by it. -/
theorem counts_liftTest {loose : Bool} {f : Expression → Expression} {k m n : Nat}
    (hloose : loose → e.isTest)
    (htests : ∀ x, (f x).tests = x.tests + m)
    (hweight : ∀ x, (f x).testWeight + k = x.testWeight + x.tests + n) :
    (liftTest loose e f).tests = e.tests + m ∧
      (liftTest loose e f).testWeight + loose.toNat + k = e.testWeight + e.tests + n := by
  cases loose with
  | false => exact ⟨htests e, hweight e⟩
  | true =>
      cases e with
      | not x | isNull b x =>
          have htests' := htests x
          have hweight' := hweight x
          simp only [liftTest, tests, testWeight, Bool.toNat_true]
          omega
      | _ => cases hloose rfl

theorem isTest_reread (h : e.isTest) : (e.reread none).isTest := by
  cases e with
  | not | isNull => rfl
  | _ => cases h

/-- The two tests next to a comparison, when both operands have been read. -/
theorem counts_comparison (hop : op.isComparison) :
    let e := liftTest l.isNot (l.reread none) fun x =>
      liftTest r.isNullTest (r.reread none) fun y => .binary x op y
    e.tests = (l.reread none).tests + (r.reread none).tests ∧
      e.testWeight + l.isNot.toNat + r.isNullTest.toNat =
        (l.reread none).testWeight + (r.reread none).testWeight +
          ((l.reread none).tests + (r.reread none).tests) := by
  have hr : r.isNullTest → (r.reread none).isTest :=
    fun h => isTest_reread (by rw [isTest, h, Bool.or_true])
  have hl : l.isNot → (l.reread none).isTest :=
    fun h => isTest_reread (by rw [isTest, h, Bool.true_or])
  -- from the inside out: the null test behind the comparison, then the `not` in front of it
  have inner : ∀ x, _ := fun x => counts_liftTest (k := 0) (m := x.tests)
    (n := x.testWeight + x.tests) (f := fun y => .binary x op y) hr
    (fun y => Nat.add_comm x.tests y.tests) (fun y => by
      rw [testWeight_comparison hop]
      omega)
  have outer := counts_liftTest (k := r.isNullTest.toNat) (m := (r.reread none).tests)
    (n := (r.reread none).testWeight + (r.reread none).tests)
    (f := fun x => liftTest r.isNullTest (r.reread none) fun y => .binary x op y) hl
    (fun x => (inner x).1.trans (Nat.add_comm _ _)) (fun x => by
      have h := (inner x).2
      omega)
  refine ⟨outer.1, ?_⟩
  have h := outer.2
  omega

/-- What is pending in front of an operand counts the same, whatever the operand is. -/
theorem exists_counts_joined (hq : ∀ x o, q = some (x, o) → ¬ o.isComparison) :
    ∃ m n : Nat, ∀ e : Expression, (joined e q).tests = m + e.tests ∧
      (joined e q).testWeight = n + e.testWeight := by
  cases q with
  | none => exact ⟨0, 0, fun e => ⟨(Nat.zero_add _).symm, (Nat.zero_add _).symm⟩⟩
  | some x =>
      exact ⟨x.1.tests, x.1.testWeight, fun e => ⟨rfl, testWeight_binary (hq x.1 x.2 rfl)⟩⟩

theorem toNat_hasLooseTest_le (l : Expression) (op : BinaryOperator) (r : Expression) :
    (Expression.binary l op r).hasLooseTest.toNat ≤ l.hasLooseTest.toNat + r.hasLooseTest.toNat +
      if op.isComparison then l.isNot.toNat + r.isNullTest.toNat else 0 := by
  have hor : ∀ a b : Bool, (a || b).toNat ≤ a.toNat + b.toNat := by decide
  have h := hor (l.hasLooseTest || r.hasLooseTest)
    (op.isComparison && (l.isNot || r.isNullTest))
  have h' := hor l.hasLooseTest r.hasLooseTest
  rw [hasLooseTest]
  cases hop : op.isComparison with
  | false =>
      rw [hop] at h
      simp only [Bool.false_and, Bool.toNat_false, Bool.or_false, Bool.false_eq_true,
        if_false] at h ⊢
      omega
  | true =>
      have h'' := hor l.isNot r.isNullTest
      rw [hop] at h
      simp only [Bool.true_and, if_true] at h ⊢
      omega

/-- Reading a text back loses no test, and moves each loose one out of a comparison. -/
theorem counts_reread (hq : ∀ x o, q = some (x, o) → ¬ o.isComparison) :
    (e.reread q).tests = (joined e q).tests ∧
      (e.reread q).testWeight + e.hasLooseTest.toNat ≤ (joined e q).testWeight := by
  induction e generalizing q with
  | atom a => exact ⟨rfl, le_rfl⟩
  | not e ih | negate e ih | isNull _ e ih =>
      obtain ⟨m, n, hj⟩ := exists_counts_joined hq
      obtain ⟨ht, hw⟩ := @ih none nofun
      rw [joined] at ht hw
      rw [reread, (hj _).1, (hj _).1, (hj _).2, (hj _).2]
      simp only [tests, testWeight, hasLooseTest]
      omega
  | binary l op r ihl ihr =>
      obtain ⟨m, n, hj⟩ := exists_counts_joined hq
      obtain ⟨htl, hwl⟩ := @ihl none nofun
      obtain ⟨htr, hwr⟩ := @ihr none nofun
      rw [joined] at htl hwl htr hwr
      have hloose := toNat_hasLooseTest_le l op r
      by_cases hop : op.isComparison
      · -- the loose tests next to the comparison are no longer inside it
        obtain ⟨ht, hw⟩ := counts_comparison (l := l) (r := r) hop
        rw [if_pos hop] at hloose
        rw [reread, if_pos hop, (hj _).1, (hj _).1, (hj _).2, (hj _).2, ht, tests,
          testWeight_comparison hop]
        omega
      · -- `and`, `or` and arithmetic count for nothing, however they are grouped
        have hleft : (leftPart op q l).tests = m + l.tests ∧
            (leftPart op q l).testWeight + l.hasLooseTest.toNat ≤ n + l.testWeight := by
          by_cases h : l.level = op.level
          · have hl := ihl hq
            rw [(hj l).1, (hj l).2] at hl
            rw [leftPart, if_pos h]
            exact hl
          · rw [leftPart, if_neg h, (hj _).1, (hj _).2]
            omega
        obtain ⟨ht, hw⟩ := hleft
        rw [if_neg hop] at hloose
        rw [(hj _).1, (hj _).2, tests, testWeight_binary hop]
        by_cases h : Continues op r
        · have hpending : ∀ x o, some (leftPart op q l, op) = some (x, o) → ¬ o.isComparison := by
            intro x o hx
            obtain ⟨rfl, rfl⟩ := Prod.mk.inj (Option.some.inj hx)
            exact hop
          obtain ⟨ht', hw'⟩ := ihr hpending
          rw [joined, tests] at ht'
          rw [joined, testWeight_binary hop] at hw'
          rw [reread_of_continues hop h]
          omega
        · rw [reread_of_not_continues hop h, tests, testWeight_binary hop]
          omega

theorem not_reassociated_reread (h : e.hasLooseTest) : ¬ Reassociated (e.reread none) e := by
  intro hr
  have hle := (counts_reread (e := e) (q := none) nofun).2
  rw [hr.testWeight_eq, h] at hle
  exact Nat.not_succ_le_self _ hle

end

/-! ### Condition trees -/

/-- **Conditions.**  A condition can be written, and its text is read as an expression.  Up to the
grouping of `and` and of `or`, that is the condition again exactly if it has no loose test. -/
theorem condition_reading {n : Node} {e : Expression} (hn : n.expression? 1 = some e)
    (hc : e.isCondition) :
    ∃ s r, n.compile .postgres = .ok s ∧ Dialect.postgres.read s.sql = some r ∧
      (Reassociated r e ↔ ¬ e.hasLooseTest) := by
  obtain ⟨s, hs, hread⟩ := Node.read_compile_eq_reread .postgres hn (tight_of_isCondition hc)
  refine ⟨s, e.reread none, hs, hread, fun h hloose => ?_, fun hloose => ?_⟩
  · exact not_reassociated_reread hloose h
  · exact reassociated_reread hc hloose logical_none

/-- `"a" and (not ("b" is null) and (1 is not null) = -"t"."c")`, with the one as a parameter. -/
def quietCondition : Node :=
  .binary (.identifier ⟨"a", false⟩) .and
    (.binary (.unary .not (.unary .isNull (.identifier ⟨"b", false⟩))) .and
      (.binary (.unary .isNotNull (.parameter (.int 1))) .eq
        (.unary .negate (.columnReference ⟨some ⟨"t", false⟩, ⟨"c", false⟩⟩))))

def quietConditionExpression : Expression :=
  .binary (.atom (.column none "a")) .and
    (.binary (.not (.isNull false (.atom (.column none "b")))) .and
      (.binary (.isNull true (.atom (.parameter 1))) .eq
        (.negate (.atom (.column (some "t") "c")))))

theorem quietCondition_reading :
    quietCondition.expression? 1 = some quietConditionExpression ∧
      quietConditionExpression.isCondition ∧
      ∃ s r, quietCondition.compile .postgres = .ok s ∧ Dialect.postgres.read s.sql = some r ∧
        Reassociated r quietConditionExpression := by
  have hn : quietCondition.expression? 1 = some quietConditionExpression := rfl
  obtain ⟨s, r, hs, hr, hiff⟩ := condition_reading hn rfl
  exact ⟨hn, rfl, s, r, hs, hr, hiff.mpr Bool.false_ne_true⟩

/-- `(not "a") = "b"`. -/
def looseNot : Node :=
  .binary (.unary .not (.column ⟨"a", false⟩)) .eq (.column ⟨"b", false⟩)

/-- The parentheses around the left operand are missing, and the `not` takes in the comparison. -/
theorem looseNot_misread :
    looseNot.compile .postgres = .ok ⟨"not \"a\" = \"b\"", []⟩ ∧
      ∃ e r : Expression, looseNot.expression? 1 = some e ∧ e.isCondition ∧
        Dialect.postgres.read "not \"a\" = \"b\"" = some r ∧ ¬ Reassociated r e := by
  let col (name : String) : Expression := .atom (.column none name)
  refine ⟨rfl, .binary (.not (col "a")) .eq (col "b"), .not (.binary (col "a") .eq (col "b")),
    rfl, rfl, rfl, fun h => ?_⟩
  exact absurd h.testWeight_eq (by decide)

end SqlTree
