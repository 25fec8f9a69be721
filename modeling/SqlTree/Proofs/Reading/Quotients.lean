import SqlTree.Node.Builder
import SqlTree.Proofs.Reading.Arithmetic
import Mathlib.Tactic.Ring

/-!
# Reading — loose quotients

A quotient that stands at the left end of a right factor, as in `a * ((b / c) * d)`, has no
parentheses of its own and is read as dividing the product in front of it.  No value survives that:
where every operand occurs once, there are numbers for which the tree and its text differ.

The numbers are found from the quotient outwards.  `exists_steady` gives numbers for which an
expression has any value wanted, and is read with that value; `exists_splits` gives numbers for a
factor and for the product behind it that starts with the quotient, and `exists_differs` carries the
difference through the operators around the two, with both values as great as wanted.

**Arithmetic** (`arithmetic_reading`).  The text of an arithmetic tree is read with the value of the
tree, unless it has a loose quotient.
-/

namespace SqlTree
open Expression

/-! ### Numbers for some of the atoms -/

/-- Some numbers for the atoms of a list have a property, whatever the other atoms stand for. -/
def Attains (as : List Atom) (P : (Atom → Int) → Prop) : Prop :=
  ∃ env : Atom → Int, ∀ env', (∀ a ∈ as, env' a = env a) → P env'

section
variable {as bs : List Atom} {P Q : (Atom → Int) → Prop}

theorem Attains.mono (h : ∀ env, P env → Q env) : Attains as P → Attains as Q
  | ⟨env, hP⟩ => ⟨env, fun env' henv => h env' (hP env' henv)⟩

/-- Numbers for different atoms can be chosen apart. -/
theorem Attains.append (hd : as.Disjoint bs) :
    Attains as P → Attains bs Q → Attains (as ++ bs) fun env => P env ∧ Q env
  | ⟨f, hf⟩, ⟨g, hg⟩ => by
      refine ⟨fun a => if a ∈ as then f a else g a, fun env' henv => ⟨?_, ?_⟩⟩
      · exact hf env' fun a ha => (henv a (List.mem_append_left bs ha)).trans (if_pos ha)
      · exact hg env' fun a ha =>
          (henv a (List.mem_append_right as ha)).trans (if_neg fun h => hd h ha)

end

/-! ### Natural numbers -/

theorem compute_div (a : Nat) {b : Nat} (hb : b ≠ 0) :
    BinaryOperator.div.compute a b = some ((a / b : Nat) : Int) := by
  rw [BinaryOperator.compute, if_neg (Int.natCast_ne_zero.mpr hb), Int.ofNat_tdiv]

theorem compute_mod (a : Nat) {b : Nat} (hb : b ≠ 0) :
    BinaryOperator.mod.compute a b = some ((a % b : Nat) : Int) := by
  rw [BinaryOperator.compute, if_neg (Int.natCast_ne_zero.mpr hb), Int.ofNat_tmod]

theorem compute_add (a b : Nat) : BinaryOperator.add.compute a b = some ((a + b : Nat) : Int) := rfl

theorem compute_mul (a b : Nat) : BinaryOperator.mul.compute a b = some ((a * b : Nat) : Int) := rfl

theorem compute_sub {a b : Nat} (h : b ≤ a) :
    BinaryOperator.sub.compute a b = some ((a - b : Nat) : Int) := by
  rw [BinaryOperator.compute, Int.ofNat_sub h]

/-- The associative operator among sums. -/
theorem eq_add_of_level {o : BinaryOperator} (ho : o.isAssociative)
    (h : o.level = BinaryOperator.add.level) : o = .add := by
  cases o with
  | add => rfl
  | mul | and | or => cases h
  | _ => cases ho

/-- The associative operator among products. -/
theorem eq_mul_of_level {o : BinaryOperator} (ho : o.isAssociative)
    (h : o.level = BinaryOperator.mul.level) : o = .mul := by
  cases o with
  | mul => rfl
  | add | and | or => cases h
  | _ => cases ho

/-! ### Any value wanted -/

/-- Whether a pending operand may be taken up: it is a number up to `m`. -/
def UpTo (m : Nat) (env : Atom → Int) (q : Pending) (e : Expression) : Prop :=
  ∀ x o, q = some (x, o) →
    o.isAssociative ∧ o.level = e.level ∧ ∃ a : Nat, a ≤ m ∧ x.value env = some (a : Int)

/-- An expression has the value `v` and is read with it, behind numbers up to `m`. -/
def Steady (e : Expression) (v m : Nat) (env : Atom → Int) : Prop :=
  e.value env = some (v : Int) ∧
    ∀ q, UpTo m env q e → (e.reread q).value env = q.around env (some (v : Int))

section
variable {env : Atom → Int} {l r : Expression} {op : BinaryOperator} {q : Pending} {m u w v : Nat}

theorem upTo_none {e : Expression} : UpTo m env none e := fun _ _ h => by cases h

/-- The left operand of a chain is read as its own value. -/
theorem Steady.value_leftPart (hl : Steady l u m env)
    (hq : ∀ x o, q = some (x, o) →
      o.isAssociative ∧ o.level = op.level ∧ ∃ a : Nat, a ≤ m ∧ x.value env = some (a : Int)) :
    (leftPart op q l).value env = q.around env (some (u : Int)) := by
  refine SqlTree.value_leftPart fun q' hq' => hl.2 q' ?_
  rcases hq' with rfl | ⟨rfl, hlevel⟩
  · exact upTo_none
  · intro x o h
    obtain ⟨hassoc, ho, ha⟩ := hq x o h
    exact ⟨hassoc, ho.trans hlevel.symm, ha⟩

/-- The right operand of a chain is read as its own value, if what stands in front is small. -/
theorem Steady.value_reread_binary {a : Nat} (hr : Steady r w m env) (hop : ¬ op.isComparison)
    (hleft : (leftPart op q l).value env = some (a : Int)) (ha : a ≤ m) :
    ((Expression.binary l op r).reread q).value env = op.compute a w := by
  have hread : ∀ q', q' = none ∨ q' = some (leftPart op q l, op) ∧ Continues op r →
      (r.reread q').value env = Pending.around env (some (w : Int)) q' := by
    intro q' hq'
    refine hr.2 q' ?_
    rcases hq' with rfl | ⟨rfl, hcont⟩
    · exact upTo_none
    · intro x o h
      obtain ⟨rfl, rfl⟩ := Prod.mk.inj (Option.some.inj h)
      exact ⟨(isAssociative_of_continues hcont).1, hcont.1.symm, a, ha, hleft⟩
  rw [SqlTree.value_reread_binary hop hread, hleft]
  rfl

/-- Operands from which an operator gives `v`, so that a number up to `m` in front of the left one
may be combined with that first. -/
theorem exists_operands (hop : op.isArithmetic) (v m : Nat) :
    ∃ u w m' : Nat, u ≤ m' ∧ op.compute u w = some (v : Int) ∧
      ∀ o : BinaryOperator, o.isAssociative → o.level = op.level → ∀ a ≤ m,
        ∃ b ≤ m', o.compute a u = some (b : Int) ∧ op.compute b w = o.compute a v := by
  cases op with
  | add =>
      refine ⟨0, v, m, Nat.zero_le m, by rw [compute_add, Nat.zero_add], fun o ho hlevel a ha => ?_⟩
      obtain rfl := eq_add_of_level ho hlevel
      exact ⟨a, ha, by rw [compute_add, Nat.add_zero], rfl⟩
  | sub =>
      refine ⟨v, 0, m + v, Nat.le_add_left v m, by rw [compute_sub (Nat.zero_le v), Nat.sub_zero],
        fun o ho hlevel a ha => ?_⟩
      obtain rfl := eq_add_of_level ho hlevel
      refine ⟨a + v, Nat.add_le_add_right ha v, rfl, ?_⟩
      rw [compute_sub (Nat.zero_le _), Nat.sub_zero]
      rfl
  | mul =>
      refine ⟨1, v, m + 1, Nat.le_add_left 1 m, by rw [compute_mul, Nat.one_mul],
        fun o ho hlevel a ha => ?_⟩
      obtain rfl := eq_mul_of_level ho hlevel
      exact ⟨a, Nat.le_succ_of_le ha, by rw [compute_mul, Nat.mul_one], rfl⟩
  | div =>
      refine ⟨v, 1, m * v + v, Nat.le_add_left v _, by rw [compute_div v one_ne_zero, Nat.div_one],
        fun o ho hlevel a ha => ?_⟩
      obtain rfl := eq_mul_of_level ho hlevel
      have hle : a * v ≤ m * v + v := (Nat.mul_le_mul_right v ha).trans (Nat.le_add_right _ v)
      refine ⟨a * v, hle, rfl, ?_⟩
      rw [compute_div _ one_ne_zero, Nat.div_one]
      rfl
  | mod =>
      have hv : v < m * v + v + 1 := Nat.lt_succ_of_le (Nat.le_add_left v _)
      refine ⟨v, m * v + v + 1, m * v + v, Nat.le_add_left v _,
        by rw [compute_mod v (Nat.succ_ne_zero _), Nat.mod_eq_of_lt hv], fun o ho hlevel a ha => ?_⟩
      obtain rfl := eq_mul_of_level ho hlevel
      have hle : a * v ≤ m * v + v := (Nat.mul_le_mul_right v ha).trans (Nat.le_add_right _ v)
      refine ⟨a * v, hle, rfl, ?_⟩
      rw [compute_mod _ (Nat.succ_ne_zero _), Nat.mod_eq_of_lt (Nat.lt_succ_of_le hle)]
      rfl
  | _ => cases hop

/-- An expression in which every operand occurs once has any value wanted, for some numbers. -/
theorem exists_steady {e : Expression} (ha : e.isArithmetic) (hd : e.atoms.Nodup) (v m : Nat) :
    Attains e.atoms (Steady e v m) := by
  induction e generalizing v m with
  | atom a =>
      refine ⟨fun _ => v, fun env henv => ?_⟩
      have hv : (atom a).value env = some (v : Int) :=
        congrArg some (henv a List.mem_cons_self)
      refine ⟨hv, fun q _ => ?_⟩
      rw [← hv]
      exact value_joined (atom a) q
  | not | negate | isNull => cases ha
  | binary l op r ihl ihr =>
      obtain ⟨hop, hl, hr⟩ := isArithmetic_binary.mp ha
      obtain ⟨hdl, hdr, hdisj⟩ := List.nodup_append'.mp hd
      obtain ⟨u, w, m', hu, hv, hbehind⟩ := exists_operands hop v m
      refine (Attains.append hdisj (ihl hl hdl u m) (ihr hr hdr w m')).mono fun env hs => ?_
      have hcmp := not_isComparison_of_isArithmetic hop
      refine ⟨?_, fun q hq => ?_⟩
      · rw [value, hs.1.1, hs.2.1]
        exact hv
      · rw [UpTo, level_binary hcmp] at hq
        have hleft := hs.1.value_leftPart hq
        -- in front of the operator stands `u`, or what is pending combined with it
        cases q with
        | none =>
            rw [hs.2.value_reread_binary hcmp hleft hu, hv]
            rfl
        | some x =>
            obtain ⟨hassoc, hlevel, a, ha, hx⟩ := hq x.1 x.2 rfl
            obtain ⟨b, hb, hab, hbv⟩ := hbehind x.2 hassoc hlevel a ha
            have haround : ∀ n : Int, Pending.around env (some n) (some x) = x.2.compute a n := by
              intro n
              rw [Pending.around, hx]
              rfl
            rw [haround, hab] at hleft
            rw [hs.2.value_reread_binary hcmp hleft hb, hbv, haround]

/-! ### A quotient behind a factor -/

/-- Read behind the factor `k`, an expression of the value `y` gives `b` and not `k * y`. -/
def Splits (e : Expression) (k y b : Nat) (env : Atom → Int) : Prop :=
  e.value env = some (y : Int) ∧
    ∀ x : Expression, x.value env = some (k : Int) →
      (e.reread (some (x, .mul))).value env = some (b : Int)

/-- A chain of products takes up the factor in front of it, and then its right operand. -/
theorem Splits.of_steady {p c k y b : Nat} (hop : op = .mul ∨ op = .div ∨ op = .mod)
    (hl : Steady l p k env) (hr : Steady r c (k * p) env)
    (hy : op.compute p c = some (y : Int)) (hb : op.compute ↑(k * p) c = some (b : Int)) :
    Splits (.binary l op r) k y b env := by
  have hcmp : ¬ op.isComparison := by rcases hop with rfl | rfl | rfl <;> decide
  have hlevel : BinaryOperator.mul.level = op.level := by rcases hop with rfl | rfl | rfl <;> rfl
  refine ⟨?_, fun x hx => ?_⟩
  · rw [value, hl.1, hr.1]
    exact hy
  · have hq : ∀ x' o, some (x, BinaryOperator.mul) = some (x', o) →
        o.isAssociative ∧ o.level = op.level ∧
          ∃ a : Nat, a ≤ k ∧ x'.value env = some (a : Int) := by
      intro x' o h
      obtain ⟨rfl, rfl⟩ := Prod.mk.inj (Option.some.inj h)
      exact ⟨rfl, hlevel, k, le_rfl, hx⟩
    have hleft : (leftPart op (some (x, .mul)) l).value env = some ((k * p : Nat) : Int) := by
      rw [hl.value_leftPart hq, Pending.around, hx]
      rfl
    rw [hr.value_reread_binary hcmp hleft le_rfl, hb]

/-- A factor of one changes nothing. -/
theorem Splits.mul_one {k y b : Nat} (hl : Splits l k y b env)
    (hlevel : l.level = BinaryOperator.mul.level) (hr : Steady r 1 b env) :
    Splits (.binary l .mul r) k y b env := by
  have hcmp : ¬ BinaryOperator.mul.isComparison := by decide
  refine ⟨?_, fun x hx => ?_⟩
  · rw [value, hl.1, hr.1]
    exact congrArg some (Int.mul_one _)
  · have hleft : (leftPart .mul (some (x, .mul)) l).value env = some (b : Int) := by
      rw [leftPart, if_pos hlevel]
      exact hl.2 x hx
    rw [hr.value_reread_binary hcmp hleft le_rfl]
    exact congrArg some (Int.mul_one _)

theorem level_of_quotient {e : Expression} (h : e.isQuotient ∨ e.startsWithQuotient) :
    e.level = BinaryOperator.mul.level := by
  cases e with
  | binary l op r =>
      cases op with
      | mul | div | mod => rfl
      | _ => rcases h with h | h <;> cases h
  | _ => rcases h with h | h <;> cases h

/-- The product in front of a quotient is divided, and not the dividend alone. -/
theorem exists_splits {e : Expression} (ha : e.isArithmetic) (hd : e.atoms.Nodup)
    (h : e.isQuotient ∨ e.startsWithQuotient) (n : Nat) :
    ∃ k y b : Nat, k * y ≠ b ∧ n ≤ k * y ∧ n ≤ b ∧ Attains e.atoms (Splits e k y b) := by
  -- down the left end of the product, to the quotient
  induction e with
  | atom a => rcases h with h | h <;> cases h
  | not | negate | isNull => cases ha
  | binary l op r ihl _ =>
      obtain ⟨hop, hl, hr⟩ := isArithmetic_binary.mp ha
      obtain ⟨hdl, hdr, hdisj⟩ := List.nodup_append'.mp hd
      cases op with
      | div =>
          -- `3 / 2` is one, and an even factor in front of it keeps the half
          have h₁ := exists_steady hl hdl 3 (2 * (n + 1))
          have h₂ := exists_steady hr hdr 2 (2 * (n + 1) * 3)
          refine ⟨2 * (n + 1), 1, 3 * (n + 1), by omega, by omega, by omega,
            (Attains.append hdisj h₁ h₂).mono fun env hs => ?_⟩
          refine Splits.of_steady (.inr (.inl rfl)) hs.1 hs.2 (compute_div 3 two_ne_zero) ?_
          rw [compute_div _ two_ne_zero]
          congr 2
          omega
      | mod =>
          -- twice a remainder of nearly the modulus is past it
          have h₁ := exists_steady hl hdl (n + 2) 2
          have h₂ := exists_steady hr hdr (n + 3) (2 * (n + 2))
          refine ⟨2, n + 2, n + 1, by omega, by omega, by omega,
            (Attains.append hdisj h₁ h₂).mono fun env hs => ?_⟩
          refine Splits.of_steady (.inr (.inr rfl)) hs.1 hs.2 ?_ ?_
          · rw [compute_mod _ (Nat.succ_ne_zero _), Nat.mod_eq_of_lt (Nat.lt_succ_self _)]
          · have hmod : 2 * (n + 2) % (n + 3) = n + 1 := by
              have hsum : 2 * (n + 2) = n + 1 + (n + 3) := by ring
              rw [hsum, Nat.add_mod_right, Nat.mod_eq_of_lt (by omega)]
            rw [compute_mod _ (Nat.succ_ne_zero _), hmod]
      | mul =>
          have hquot : l.isQuotient ∨ l.startsWithQuotient := by
            simpa [isQuotient, startsWithQuotient] using h
          obtain ⟨k, y, b, hne, hy, hb, h₁⟩ := ihl hl hdl hquot
          have h₂ := exists_steady hr hdr 1 b
          exact ⟨k, y, b, hne, hy, hb, (Attains.append hdisj h₁ h₂).mono fun env hs =>
            hs.1.mul_one (level_of_quotient hquot) hs.2⟩
      | _ => rcases h with h | h <;> cases h

/-! ### Around the difference -/

/-- The unit of addition and of multiplication, as a pending operand. -/
def UnitBefore (env : Atom → Int) (q : Pending) (e : Expression) : Prop :=
  ∀ x o, q = some (x, o) → o.level = e.level ∧
    (o = .add ∧ x.value env = some 0 ∨ o = .mul ∧ x.value env = some 1)

/-- An expression has the value `a` and is read with the value `b`, also behind a unit. -/
def Differs (e : Expression) (a b : Nat) (env : Atom → Int) : Prop :=
  e.value env = some (a : Int) ∧
    ∀ q, UnitBefore env q e → (e.reread q).value env = some (b : Int)

theorem UnitBefore.around {e : Expression} (h : UnitBefore env q e) (n : Int) :
    q.around env (some n) = some n := by
  cases q with
  | none => rfl
  | some x =>
      rcases (h x.1 x.2 rfl).2 with ⟨ho, hx⟩ | ⟨ho, hx⟩
      · rw [Pending.around, hx, ho]
        exact congrArg some (Int.zero_add n)
      · rw [Pending.around, hx, ho]
        exact congrArg some (Int.one_mul n)

theorem UnitBefore.upTo {e : Expression} (h : UnitBefore env q e) : UpTo 1 env q e := by
  intro x o hq
  obtain ⟨hlevel, ⟨rfl, hx⟩ | ⟨rfl, hx⟩⟩ := h x o hq
  · exact ⟨rfl, hlevel, 0, Nat.zero_le 1, hx⟩
  · exact ⟨rfl, hlevel, 1, le_rfl, hx⟩

theorem Differs.left {a b : Nat} (hop : ¬ op.isComparison) (hl : Differs l a b env)
    (hr : Steady r w m env) (hb : b ≤ m) (hval : op.compute a w = some (a : Int))
    (hread : op.compute b w = some (b : Int)) : Differs (.binary l op r) a b env := by
  refine ⟨?_, fun q hq => ?_⟩
  · rw [value, hl.1, hr.1]
    exact hval
  · have hleft : (leftPart op q l).value env = some (b : Int) := by
      rw [← hq.around b]
      refine value_leftPart fun q' hq' => ?_
      rcases hq' with rfl | ⟨rfl, hlevel⟩
      · exact hl.2 none fun _ _ h => by cases h
      · have hunit : UnitBefore env q' l := by
          intro x o h
          obtain ⟨ho, hx⟩ := hq x o h
          rw [level_binary hop] at ho
          exact ⟨ho.trans hlevel.symm, hx⟩
        rw [hl.2 q' hunit, hunit.around]
    rw [hr.value_reread_binary hop hleft hb, hread]

theorem Differs.right {c d a b : Nat} (hop : ¬ op.isComparison) (ha : op.isArithmetic)
    (hl : Steady l u 1 env) (hr : Differs r c d env)
    (hval : op.compute u c = some (a : Int)) (hread : op.compute u d = some (b : Int))
    (hadd : op = .add → u = 0) (hmul : op = .mul → u = 1) :
    Differs (.binary l op r) a b env := by
  refine ⟨?_, fun q hq => ?_⟩
  · rw [value, hl.1, hr.1]
    exact hval
  · have hup := hq.upTo
    rw [UpTo, level_binary hop] at hup
    have hleft := hl.value_leftPart hup
    rw [hq.around] at hleft
    have hright : ∀ q', q' = none ∨ q' = some (leftPart op q l, op) ∧ Continues op r →
        (r.reread q').value env = Pending.around env (some (d : Int)) q' := by
      intro q' hq'
      have hunit : UnitBefore env q' r := by
        rcases hq' with rfl | ⟨rfl, hcont⟩
        · exact fun _ _ h => by cases h
        · intro x o h
          obtain ⟨rfl, rfl⟩ := Prod.mk.inj (Option.some.inj h)
          refine ⟨hcont.1.symm, ?_⟩
          rcases add_or_mul_of_isAssociative ha (isAssociative_of_continues hcont).1 with ho | ho
          · exact .inl ⟨ho, by rw [hleft, hadd ho]; rfl⟩
          · exact .inr ⟨ho, by rw [hleft, hmul ho]; rfl⟩
      rw [hr.2 q' hunit, hunit.around]
    rw [value_reread_binary hop hright, hleft]
    exact hread

theorem Differs.product {k y b : Nat} (hl : Steady l k 1 env) (hr : Splits r k y b env)
    (hquot : r.startsWithQuotient) : Differs (.binary l .mul r) (k * y) b env := by
  have hop : ¬ BinaryOperator.mul.isComparison := by decide
  refine ⟨?_, fun q hq => ?_⟩
  · rw [value, hl.1, hr.1]
    rfl
  · have hup := hq.upTo
    rw [UpTo, level_binary hop] at hup
    have hleft := hl.value_leftPart hup
    rw [hq.around] at hleft
    have hcont : Continues .mul r := by
      refine ⟨level_of_quotient (.inr hquot), ?_⟩
      cases r with
      | binary l' child r' =>
          cases child with
          | mul => exact Bool.false_ne_true
          | _ => cases hquot
      | _ => cases hquot
    rw [reread_of_continues hop hcont]
    exact hr.2 _ hleft

/-! ### Numbers that tell a tree and its text apart -/

/-- A right operand that changes no left operand up to `m`. -/
theorem exists_neutral (hop : op.isArithmetic) (m : Nat) :
    ∃ w : Nat, ∀ a ≤ m, op.compute a w = some (a : Int) := by
  cases op with
  | add => exact ⟨0, fun a _ => by rw [compute_add, Nat.add_zero]⟩
  | sub => exact ⟨0, fun a _ => by rw [compute_sub (Nat.zero_le a), Nat.sub_zero]⟩
  | mul => exact ⟨1, fun a _ => by rw [compute_mul, Nat.mul_one]⟩
  | div => exact ⟨1, fun a _ => by rw [compute_div a one_ne_zero, Nat.div_one]⟩
  | mod =>
      refine ⟨m + 1, fun a ha => ?_⟩
      rw [compute_mod a (Nat.succ_ne_zero m), Nat.mod_eq_of_lt (Nat.lt_succ_of_le ha)]
  | _ => cases hop

/-- Two moduli that are far from zero leave different remainders, and no small ones. -/
theorem exists_mod_ne {c d n : Nat} (h : c < d) (hc : 2 * n < c) :
    ∃ u, u % c ≠ u % d ∧ n ≤ u % c ∧ n ≤ u % d := by
  by_cases hfar : c + n < d
  · have h₁ : (c + n) % c = n := by rw [Nat.add_mod_left, Nat.mod_eq_of_lt (by omega)]
    have h₂ : (c + n) % d = c + n := Nat.mod_eq_of_lt hfar
    exact ⟨c + n, by omega, by omega, by omega⟩
  · have h₁ : (d + n) % c = n + (d - c) := by
      have hsum : d + n = c + (n + (d - c)) := by omega
      rw [hsum, Nat.add_mod_left, Nat.mod_eq_of_lt (by omega)]
    have h₂ : (d + n) % d = n := by rw [Nat.add_mod_left, Nat.mod_eq_of_lt (by omega)]
    exact ⟨d + n, by omega, by omega, by omega⟩

/-- A left operand that keeps two right operands apart. -/
theorem exists_separating (hop : op.isArithmetic) {c d : Nat} (n : Nat) (hne : c ≠ d)
    (hc : 2 * n < c) (hd : 2 * n < d) :
    ∃ u a b : Nat, a ≠ b ∧ n ≤ a ∧ n ≤ b ∧ op.compute u c = some (a : Int) ∧
      op.compute u d = some (b : Int) ∧ (op = .add → u = 0) ∧ (op = .mul → u = 1) := by
  have hc0 : c ≠ 0 := by omega
  have hd0 : d ≠ 0 := by omega
  cases op with
  | add =>
      refine ⟨0, c, d, hne, by omega, by omega, ?_, ?_, fun _ => rfl, nofun⟩
      · rw [compute_add, Nat.zero_add]
      · rw [compute_add, Nat.zero_add]
  | sub =>
      refine ⟨c + d + n, d + n, c + n, by omega, by omega, by omega, ?_, ?_, nofun, nofun⟩
      · rw [compute_sub (by omega)]
        congr 2
        omega
      · rw [compute_sub (by omega)]
        congr 2
        omega
  | mul =>
      refine ⟨1, c, d, hne, by omega, by omega, ?_, ?_, nofun, fun _ => rfl⟩
      · rw [compute_mul, Nat.one_mul]
      · rw [compute_mul, Nat.one_mul]
  | div =>
      refine ⟨c * d, d, c, hne.symm, by omega, by omega, ?_, ?_, nofun, nofun⟩
      · rw [compute_div _ hc0, Nat.mul_div_cancel_left d (Nat.pos_of_ne_zero hc0)]
      · rw [compute_div _ hd0, Nat.mul_div_cancel c (Nat.pos_of_ne_zero hd0)]
  | mod =>
      rcases Nat.lt_or_gt_of_ne hne with hlt | hlt
      · obtain ⟨u, hu, hn₁, hn₂⟩ := exists_mod_ne hlt hc
        exact ⟨u, u % c, u % d, hu, hn₁, hn₂, compute_mod u hc0, compute_mod u hd0, nofun, nofun⟩
      · obtain ⟨u, hu, hn₁, hn₂⟩ := exists_mod_ne hlt hd
        exact ⟨u, u % c, u % d, hu.symm, hn₂, hn₁, compute_mod u hc0, compute_mod u hd0, nofun,
          nofun⟩
  | _ => cases hop

/-- With a loose quotient, some numbers tell an expression and its reading apart. -/
theorem exists_differs {e : Expression} (ha : e.isArithmetic) (hd : e.atoms.Nodup)
    (h : e.hasLooseQuotient) (n : Nat) :
    ∃ a b : Nat, a ≠ b ∧ n ≤ a ∧ n ≤ b ∧ Attains e.atoms (Differs e a b) := by
  induction e generalizing n with
  | atom | not | negate | isNull => cases h
  | binary l op r ihl ihr =>
      obtain ⟨hop, hl, hr⟩ := isArithmetic_binary.mp ha
      obtain ⟨hdl, hdr, hdisj⟩ := List.nodup_append'.mp hd
      have hcmp := not_isComparison_of_isArithmetic hop
      simp only [hasLooseQuotient, Bool.or_eq_true, Bool.and_eq_true, beq_iff_eq] at h
      rcases h with (hleft | hright) | ⟨rfl, hquot⟩
      · -- the right operand leaves the two values of the left one as they are
        obtain ⟨a, b, hne, hna, hnb, h₁⟩ := ihl hl hdl hleft n
        obtain ⟨w, hw⟩ := exists_neutral hop (a + b)
        have h₂ := exists_steady hr hdr w b
        exact ⟨a, b, hne, hna, hnb, (Attains.append hdisj h₁ h₂).mono fun env hs =>
          hs.1.left hcmp hs.2 le_rfl (hw a (Nat.le_add_right a b)) (hw b (Nat.le_add_left b a))⟩
      · -- the left operand keeps the two values of the right one apart
        obtain ⟨c, d, hne, hc, hd, h₂⟩ := ihr hr hdr hright (2 * n + 1)
        obtain ⟨u, a, b, hab, hna, hnb, hval, hread, hadd, hmul⟩ :=
          exists_separating hop n hne hc hd
        have h₁ := exists_steady hl hdl u 1
        exact ⟨a, b, hab, hna, hnb, (Attains.append hdisj h₁ h₂).mono fun env hs =>
          .right hcmp hop hs.1 hs.2 hval hread hadd hmul⟩
      · -- the loose quotient is here
        obtain ⟨k, y, b, hne, hy, hb, h₂⟩ := exists_splits hr hdr (.inr hquot) n
        have h₁ := exists_steady hl hdl k 1
        exact ⟨k * y, b, hne, hy, hb, (Attains.append hdisj h₁ h₂).mono fun env hs =>
          .product hs.1 hs.2 hquot⟩

end

/-! ### Arithmetic trees -/

/-- **Arithmetic.**  An arithmetic tree can be written for every dialect, and its text is read as an
expression.  That has the value of the tree for all numbers, if the tree has no loose quotient; if
it has one and every operand occurs once, then not for all of them. -/
theorem arithmetic_reading (d : Dialect) {n : Node} {e : Expression} (hn : n.expression? 1 = some e)
    (ha : e.isArithmetic) :
    ∃ s r, n.compile d = .ok s ∧ d.read s.sql = some r ∧
      (¬ e.hasLooseQuotient → ∀ env, r.value env = e.value env) ∧
      (e.hasLooseQuotient → e.atoms.Nodup → ∃ env, r.value env ≠ e.value env) := by
  obtain ⟨s, hs, hread⟩ := Node.read_compile_eq_reread d hn (tight_of_isArithmetic ha)
  refine ⟨s, e.reread none, hs, hread, fun hloose env => ?_, fun hloose hd => ?_⟩
  · exact value_reread env ha hloose agrees_none
  · obtain ⟨a, b, hne, -, -, env, henv⟩ := exists_differs ha hd hloose 0
    obtain ⟨hval, hread⟩ := henv env fun _ _ => rfl
    refine ⟨env, ?_⟩
    rw [hval, hread none fun _ _ h => by cases h]
    intro h
    exact hne (Int.ofNat_inj.mp (Option.some.inj h)).symm

/-- `"x" - "t"."a" * ((1 % "b") * "c")`, with the one as a parameter. -/
def looseRemainder : Node :=
  .binary (.identifier ⟨"x", false⟩) .sub
    (.binary (.columnReference ⟨some ⟨"t", false⟩, ⟨"a", false⟩⟩) .mul
      (.binary (.binary (.parameter (.int 1)) .mod (.identifier ⟨"b", false⟩)) .mul
        (.identifier ⟨"c", false⟩)))

def looseRemainderExpression : Expression :=
  .binary (.atom (.column none "x")) .sub
    (.binary (.atom (.column (some "t") "a")) .mul
      (.binary (.binary (.atom (.parameter 1)) .mod (.atom (.column none "b"))) .mul
        (.atom (.column none "c"))))

theorem looseRemainder_reading :
    looseRemainder.expression? 1 = some looseRemainderExpression ∧
      looseRemainderExpression.isArithmetic ∧
      ∃ s r, looseRemainder.compile .mysql = .ok s ∧ Dialect.mysql.read s.sql = some r ∧
        ∃ env, r.value env ≠ looseRemainderExpression.value env := by
  have hn : looseRemainder.expression? 1 = some looseRemainderExpression := rfl
  obtain ⟨s, r, hs, hr, -, hlost⟩ := arithmetic_reading .mysql hn rfl
  exact ⟨hn, rfl, s, r, hs, hr, hlost rfl (by decide)⟩

/-- `"a" * (("b" / "c") * "d")`. -/
def looseQuotient : Node :=
  .binary (.column ⟨"a", false⟩) .mul
    (.binary (.binary (.column ⟨"b", false⟩) .div (.column ⟨"c", false⟩)) .mul
      (.column ⟨"d", false⟩))

/-- Twice the half of three is two, and the half of six is three. -/
theorem looseQuotient_misread :
    looseQuotient.compile .postgres = .ok ⟨"\"a\" * \"b\" / \"c\" * \"d\"", []⟩ ∧
      ∃ (e r : Expression) (env : Atom → Int), looseQuotient.expression? 1 = some e ∧
        e.isArithmetic ∧ Dialect.postgres.read "\"a\" * \"b\" / \"c\" * \"d\"" = some r ∧
        e.value env = some 2 ∧ r.value env = some 3 := by
  let col (name : String) : Expression := .atom (.column none name)
  refine ⟨rfl, .binary (col "a") .mul (.binary (.binary (col "b") .div (col "c")) .mul (col "d")),
    .binary (.binary (.binary (col "a") .mul (col "b")) .div (col "c")) .mul (col "d"),
    fun x => if x = .column none "b" then 3 else if x = .column none "d" then 1 else 2,
    rfl, rfl, rfl, rfl, rfl⟩

end SqlTree
