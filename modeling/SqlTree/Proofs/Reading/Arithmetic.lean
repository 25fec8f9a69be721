import SqlTree.Proofs.Reading.Regrouping
import Mathlib.Data.List.Nodup

/-!
# Reading — arithmetic

Whether the text of an arithmetic tree has the value of the tree.  Reading the text regroups its
operators, so the question is which regroupings keep a value.  A sum may be regrouped, and so may a
product, but `a * (b / c)` is not `(a * b) / c` where division truncates.

`value_reread` is the half without such a quotient: `Agrees` says what a part of the expression may
take up from in front of it, and no part takes up more than that.
-/

namespace SqlTree
open Expression

def BinaryOperator.isArithmetic : BinaryOperator → Bool
  | add | sub | mul | div | mod => true
  | _ => false

/-- The number an operator gives.  Division truncates towards zero, and there is none by zero. -/
def BinaryOperator.compute : BinaryOperator → Int → Int → Option Int
  | add, a, b => some (a + b)
  | sub, a, b => some (a - b)
  | mul, a, b => some (a * b)
  | div, a, b => if b = 0 then none else some (a.tdiv b)
  | mod, a, b => if b = 0 then none else some (a.tmod b)
  | _, _, _ => none

namespace Expression

def isArithmetic : Expression → Bool
  | atom _ => true
  | binary l op r => op.isArithmetic && l.isArithmetic && r.isArithmetic
  | _ => false

/-- The value of an expression where the atoms stand for numbers. -/
def value (env : Atom → Int) : Expression → Option Int
  | atom a => some (env a)
  | binary l op r => (l.value env).bind fun a => (r.value env).bind (op.compute a)
  | _ => none

def isQuotient : Expression → Bool
  | binary _ .div _ | binary _ .mod _ => true
  | _ => false

/-- Whether an expression is a product whose first factor is a quotient or a remainder. -/
def startsWithQuotient : Expression → Bool
  | binary l .mul _ => l.isQuotient || l.startsWithQuotient
  | _ => false

/-- Whether some product has a right factor that starts with a quotient.  Without parentheses the
quotient divides the whole product in front of it. -/
def hasLooseQuotient : Expression → Bool
  | binary l op r =>
    l.hasLooseQuotient || r.hasLooseQuotient || (op == .mul && r.startsWithQuotient)
  | _ => false

end Expression

/-- The value behind a pending operand. -/
def Pending.around (env : Atom → Int) (v : Option Int) : Pending → Option Int
  | none => v
  | some (x, op) => (x.value env).bind fun a => v.bind (op.compute a)

section
variable {env : Atom → Int} {e l r : Expression} {op : BinaryOperator} {q : Pending}

theorem not_isComparison_of_isArithmetic (h : op.isArithmetic) : ¬ op.isComparison := by
  cases op with
  | add | sub | mul | div | mod => decide
  | _ => cases h

theorem add_or_mul_of_isAssociative (ha : op.isArithmetic) (h : op.isAssociative) :
    op = .add ∨ op = .mul := by
  cases op with
  | add => exact .inl rfl
  | mul => exact .inr rfl
  | and | or => cases ha
  | _ => cases h

theorem Expression.not_isTest_of_isArithmetic (h : e.isArithmetic) : ¬ e.isTest := by
  cases e with
  | atom | binary => exact Bool.false_ne_true
  | _ => cases h

theorem Expression.isArithmetic_binary :
    (binary l op r).isArithmetic ↔ op.isArithmetic ∧ l.isArithmetic ∧ r.isArithmetic := by
  simp [isArithmetic, and_assoc]

theorem Expression.tight_of_isArithmetic (h : e.isArithmetic) : e.Tight := by
  induction e with
  | atom _ => trivial
  | not | negate | isNull => cases h
  | binary l op r ihl ihr =>
      obtain ⟨hop, hl, hr⟩ := isArithmetic_binary.mp h
      have hcmp := not_isComparison_of_isArithmetic hop
      refine ⟨ihl hl, ihr hr, .inr ⟨?_, ?_⟩⟩
      · exact (parens_or_level_le hcmp fun ht => absurd ht (not_isTest_of_isArithmetic hl)).1
      · exact (parens_or_level_le hcmp fun ht => absurd ht (not_isTest_of_isArithmetic hr)).2

/-! ### Values of what is read -/

theorem value_joined (e : Expression) (q : Pending) :
    (joined e q).value env = q.around env (e.value env) := by
  cases q <;> rfl

/-- A left operand that is read as the number `u`. -/
theorem value_leftPart {u : Option Int}
    (hl : ∀ q', q' = none ∨ q' = q ∧ l.level = op.level →
      (l.reread q').value env = Pending.around env u q') :
    (leftPart op q l).value env = q.around env u := by
  by_cases h : l.level = op.level
  · rw [leftPart, if_pos h]
    exact hl q (.inr ⟨rfl, h⟩)
  · rw [leftPart, if_neg h, value_joined, hl none (.inl rfl)]
    rfl

/-- A right operand that is read as the number `w`. -/
theorem value_reread_binary {w : Option Int} (hop : ¬ op.isComparison)
    (hr : ∀ q', q' = none ∨ q' = some (leftPart op q l, op) ∧ Continues op r →
      (r.reread q').value env = Pending.around env w q') :
    ((Expression.binary l op r).reread q).value env =
      ((leftPart op q l).value env).bind fun a => w.bind (op.compute a) := by
  by_cases h : Continues op r
  · rw [reread_of_continues hop h]
    exact hr _ (.inr ⟨rfl, h⟩)
  · rw [reread_of_not_continues hop h, value, hr none (.inl rfl)]
    rfl

/-! ### Where the value is kept -/

/-- A pending operand that an expression can take up without a change of value: an addend, or a
factor in front of a product that starts with no quotient. -/
def Agrees (q : Pending) (e : Expression) : Prop :=
  ∀ x o, q = some (x, o) →
    o.level = e.level ∧ (o = .add ∨ o = .mul ∧ ¬ e.isQuotient ∧ ¬ e.startsWithQuotient)

theorem agrees_none : Agrees none e := fun _ _ h => by cases h

theorem Agrees.left (h : Agrees q (.binary l op r)) (hop : ¬ op.isComparison)
    (hl : l.level = op.level) : Agrees q l := by
  intro x o hq
  obtain ⟨hlevel, hcase⟩ := h x o hq
  rw [level_binary hop] at hlevel
  refine ⟨hlevel.trans hl.symm, hcase.imp_right ?_⟩
  rintro ⟨rfl, hquot, hstart⟩
  cases op with
  | mul =>
      rw [startsWithQuotient, Bool.or_eq_true, not_or] at hstart
      exact ⟨rfl, hstart⟩
  | div | mod => exact absurd rfl hquot
  | _ => cases hlevel

theorem agrees_right {left : Expression} (h : ¬ (Expression.binary l op r).hasLooseQuotient)
    (ha : op.isArithmetic) (hr : Continues op r) : Agrees (some (left, op)) r := by
  intro x o hq
  obtain ⟨rfl, rfl⟩ := Prod.mk.inj (Option.some.inj hq)
  refine ⟨hr.1.symm, ?_⟩
  obtain ⟨hassoc, l', r', rfl⟩ := isAssociative_of_continues hr
  rcases add_or_mul_of_isAssociative ha hassoc with rfl | rfl
  · exact .inl rfl
  · refine .inr ⟨rfl, Bool.false_ne_true, fun hs => h ?_⟩
    simp [hasLooseQuotient, hs]

/-- Sums regroup, and so do products. -/
theorem bind_compute_assoc {o : BinaryOperator}
    (h : o = .add ∧ (op = .add ∨ op = .sub) ∨ o = .mul ∧ op = .mul) (x u w : Option Int) :
    ((x.bind fun a => u.bind (o.compute a)).bind fun a => w.bind (op.compute a)) =
      x.bind fun a => (u.bind fun b => w.bind (op.compute b)).bind (o.compute a) := by
  rcases x with _ | a
  · rfl
  rcases u with _ | b
  · rfl
  rcases w with _ | c
  · rcases h with ⟨rfl, -⟩ | ⟨rfl, -⟩ <;> rfl
  -- all three numbers are there
  rcases h with ⟨rfl, rfl | rfl⟩ | ⟨rfl, rfl⟩
  · exact congrArg some (Int.add_assoc a b c)
  · exact congrArg some (Int.add_sub_assoc a b c)
  · exact congrArg some (Int.mul_assoc a b c)

theorem Agrees.around_binary (h : Agrees q (.binary l op r)) (ha : op.isArithmetic)
    (u w : Option Int) :
    ((q.around env u).bind fun a => w.bind (op.compute a)) =
      q.around env (u.bind fun b => w.bind (op.compute b)) := by
  cases q with
  | none => rfl
  | some x =>
      obtain ⟨hlevel, hcase⟩ := h x.1 x.2 rfl
      rw [level_binary (not_isComparison_of_isArithmetic ha)] at hlevel
      refine bind_compute_assoc ?_ _ u w
      rcases hcase with ho | ⟨ho, hquot, -⟩
      · rw [ho] at hlevel ⊢
        cases op with
        | add => exact .inl ⟨rfl, .inl rfl⟩
        | sub => exact .inl ⟨rfl, .inr rfl⟩
        | _ => cases hlevel
      · rw [ho] at hlevel ⊢
        cases op with
        | mul => exact .inr ⟨rfl, rfl⟩
        | div | mod => exact absurd rfl hquot
        | _ => cases hlevel

/-- Without a loose quotient, regrouping keeps the value. -/
theorem value_reread (env : Atom → Int) (ha : e.isArithmetic) (hloose : ¬ e.hasLooseQuotient)
    (hq : Agrees q e) : (e.reread q).value env = q.around env (e.value env) := by
  induction e generalizing q with
  | atom a => exact value_joined (atom a) q
  | not | negate | isNull => cases ha
  | binary l op r ihl ihr =>
      obtain ⟨hop, hl, hr⟩ := isArithmetic_binary.mp ha
      have hcmp := not_isComparison_of_isArithmetic hop
      have hparts := hloose
      simp only [hasLooseQuotient, Bool.or_eq_true, not_or] at hparts
      have hleft : (leftPart op q l).value env = q.around env (l.value env) := by
        refine value_leftPart fun q' hq' => ihl hl hparts.1.1 ?_
        rcases hq' with rfl | ⟨rfl, hlevel⟩
        · exact agrees_none
        · exact hq.left hcmp hlevel
      -- the pending operand is combined with the left one first, which may be regrouped
      rw [value_reread_binary (w := r.value env) hcmp, hleft, hq.around_binary hop]
      · rfl
      · intro q' hq'
        refine ihr hr hparts.1.2 ?_
        rcases hq' with rfl | ⟨rfl, hcont⟩
        · exact agrees_none
        · exact agrees_right hloose hop hcont

end

end SqlTree
