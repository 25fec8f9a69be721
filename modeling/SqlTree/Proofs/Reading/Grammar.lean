import SqlTree.Proofs.Reading.Expression
import SqlTree.Proofs.Reading.Lexeme

/-!
# Reading — the grammar of expressions

How SQL groups operators: `Dialect.read` is the expression that a text stands for.  From loosest to
tightest the operators are `or`, `and`, `not`, `is null`, the comparisons, `+` and `-`, `*` and `/`
and `%`, and the minus of a single operand.  Operators of one strength group to the left, except
that comparisons do not chain, and parentheses come before all of this.

`parse` is the usual shift-and-reduce reader for such a grammar.  A `Frame` is an operator or a
parenthesis whose right operand has not ended, and `reduce` closes the frames that bind at least as
tightly as what comes next.
-/

namespace SqlTree

/-- How tightly an operator binds, with room for the operators of one operand in between. -/
def BinaryOperator.level (op : BinaryOperator) : Nat := 3 * op.precedence

/-- The level of `is null`, between `not` and the comparisons. -/
def nullTestLevel : Nat := 8

inductive Frame where
  | paren
  | not
  | negate
  | operand (left : Expression) (op : BinaryOperator)
deriving DecidableEq, Inhabited

namespace Frame

def level : Frame → Nat
  | paren => 0
  | not => 7
  | negate => 16
  | operand _ op => op.level

/-- The expression whose last operand has ended. -/
def close (e : Expression) : Frame → Expression
  | paren => e
  | not => .not e
  | negate => .negate e
  | operand l op => .binary l op e

end Frame

/-- Closes the innermost frames down to a level. -/
def reduce (level : Nat) : List Frame → Expression → List Frame × Expression
  | [], e => ([], e)
  | f :: fs, e => if level ≤ f.level then reduce level fs (f.close e) else (f :: fs, e)

/-- What has been read behind the innermost frame. -/
inductive Phase where
  | operand
  | name (s : String)
  /-- A name and a dot: the name is that of a table. -/
  | dotted (s : String)
  | value (e : Expression)
  /-- An operand and `not`: the operator is one of two words. -/
  | negated (e : Expression)
  | is (e : Expression)
  | isNot (e : Expression)
deriving Inhabited

/-- The operand that has been read, if it is whole. -/
def Phase.value? : Phase → Option Expression
  | name s => some (.atom (.column none s))
  | value e => some e
  | _ => none

/-- Whether the innermost frame is a comparison without its right operand. -/
def insideComparison : List Frame → Bool
  | .operand _ op :: _ => op.isComparison
  | _ => false

/-- Takes an operand as the left one of an operator. -/
def shift (fs : List Frame) (e : Expression) (op : BinaryOperator) : Option (List Frame × Phase) :=
  if op.isComparison then
    -- another comparison to the left would have to be closed for this one
    let (fs, e) := reduce (op.level + 1) fs e
    if insideComparison fs then none else some (.operand e op :: fs, .operand)
  else
    let (fs, e) := reduce op.level fs e
    some (.operand e op :: fs, .operand)

/-- What may come behind an operand. -/
def stepBehind (fs : List Frame) (e : Expression) : Lexeme → Option (List Frame × Phase)
  | .operator op => shift fs e op
  | .not => some (fs, .negated e)
  | .is =>
    let (fs, e) := reduce nullTestLevel fs e
    some (fs, .is e)
  | .closing =>
    match reduce 1 fs e with
    | (.paren :: fs, e) => some (fs, .value e)
    | _ => none
  | _ => none

/-- One lexeme. -/
def step (fs : List Frame) : Phase → Lexeme → Option (List Frame × Phase)
  | .operand, .name s => some (fs, .name s)
  | .operand, .parameter k => some (fs, .value (.atom (.parameter k)))
  | .operand, .opening => some (.paren :: fs, .operand)
  | .operand, .not => some (.not :: fs, .operand)
  -- a minus without a left operand
  | .operand, .operator .sub => some (.negate :: fs, .operand)
  | .name s, .dot => some (fs, .dotted s)
  | .dotted table, .name s => some (fs, .value (.atom (.column (some table) s)))
  | .negated e, .operator .like => shift fs e .notLike
  | .negated e, .operator .isIn => shift fs e .notIn
  | .is e, .null => some (fs, .value (.isNull false e))
  | .is e, .not => some (fs, .isNot e)
  | .isNot e, .null => some (fs, .value (.isNull true e))
  | p, t => p.value?.bind fun e => stepBehind fs e t

/-- The expression of lexemes, behind the frames and what has been read of the innermost one. -/
def parse (fs : List Frame) (p : Phase) : List Lexeme → Option Expression
  | [] =>
    p.value?.bind fun e =>
      match reduce 1 fs e with
      | ([], e) => some e
      | _ => none
  | t :: ts => (step fs p t).bind fun (fs, p) => parse fs p ts

/-- The expression that a text stands for in a dialect. -/
def Dialect.read (d : Dialect) (s : String) : Option Expression :=
  (lexFrom d 1 .between s.toList).bind (parse [] .operand)

/-! ### Closing frames -/

/-- Whether the innermost frame binds more loosely than a level. -/
def Below (level : Nat) (fs : List Frame) : Prop := ∀ f ∈ fs.head?, f.level < level

section
variable {L M : Nat} {f : Frame} {fs : List Frame} {e : Expression}

theorem below_nil : Below L [] := fun _ h => by cases h

theorem below_cons (h : f.level < L) : Below L (f :: fs) := fun _ hf => Option.some.inj hf ▸ h

theorem Below.mono (h : Below L fs) (hM : L ≤ M) : Below M fs :=
  fun f hf => Nat.lt_of_lt_of_le (h f hf) hM

theorem reduce_of_below (h : Below L fs) : reduce L fs e = (fs, e) := by
  cases fs with
  | nil => rfl
  | cons f fs => exact if_neg (Nat.not_le.mpr (h f rfl))

theorem reduce_cons (h : L ≤ f.level) : reduce L (f :: fs) e = reduce L fs (f.close e) :=
  if_pos h

end

/-! ### Steps -/

section
variable {fs : List Frame} {p : Phase} {e : Expression} {ts : List Lexeme}

theorem step_of_value? (hp : p.value? = some e) {t : Lexeme} (ht : t ≠ .dot) :
    step fs p t = stepBehind fs e t := by
  cases p with
  | name s =>
      obtain rfl := Option.some.inj hp
      cases t with
      | dot => exact absurd rfl ht
      | _ => rfl
  | value e' =>
      obtain rfl := Option.some.inj hp
      rfl
  | _ => cases hp

/-- An operator behind an operand. -/
theorem parse_operator (hp : p.value? = some e) (op : BinaryOperator) :
    parse fs p (op.lexemes ++ ts) = (shift fs e op).bind fun (fs, p) => parse fs p ts := by
  have single : ∀ o, parse fs p (.operator o :: ts) =
      (shift fs e o).bind fun (fs, p) => parse fs p ts := by
    intro o
    have h : step fs p (.operator o) = shift fs e o := step_of_value? hp (by simp)
    rw [parse, h]
  have double : ∀ us, parse fs p (.not :: us) = parse fs (.negated e) us := by
    intro us
    have h : step fs p .not = some (fs, .negated e) := step_of_value? hp (by simp)
    rw [parse, h]
    rfl
  cases op with
  | notLike | notIn => exact double _
  | _ => exact single _

/-- The parenthesis that closes the innermost one of the frames. -/
theorem parse_closing {fs' : List Frame} {e' : Expression} (hp : p.value? = some e)
    (hr : reduce 1 fs e = (.paren :: fs', e')) :
    parse fs p (.closing :: ts) = parse fs' (.value e') ts := by
  have h : step fs p .closing = some (fs', .value e') := by
    rw [step_of_value? hp (by simp), stepBehind, hr]
  rw [parse, h]
  rfl

def nullTestLexemes (negated : Bool) : List Lexeme :=
  if negated then [.is, .not, .null] else [.is, .null]

theorem parse_nullTest (fs : List Frame) (ts : List Lexeme) (hp : p.value? = some e)
    (negated : Bool) :
    parse fs p (nullTestLexemes negated ++ ts) =
      parse (reduce nullTestLevel fs e).1 (.value (.isNull negated (reduce nullTestLevel fs e).2))
        ts := by
  have h : step fs p .is =
      some ((reduce nullTestLevel fs e).1, .is (reduce nullTestLevel fs e).2) :=
    step_of_value? hp (by simp)
  cases negated with
  | false | true =>
      rw [nullTestLexemes]
      simp only [Bool.false_eq_true, if_false, if_true, List.cons_append]
      rw [parse, h]
      rfl

theorem parse_end {e' : Expression} (hp : p.value? = some e) (hr : reduce 1 fs e = ([], e')) :
    parse fs p [] = some e' := by
  rw [parse, hp, Option.bind_some, hr]

/-- An operator groups what it binds less tightly than to its left. -/
theorem shift_of_not_isComparison {op : BinaryOperator} (h : ¬ op.isComparison) :
    shift fs e op =
      some (.operand (reduce op.level fs e).2 op :: (reduce op.level fs e).1, .operand) :=
  if_neg h

theorem shift_of_isComparison {op : BinaryOperator} (h : op.isComparison)
    (hc : ¬ insideComparison (reduce (op.level + 1) fs e).1) :
    shift fs e op =
      some (.operand (reduce (op.level + 1) fs e).2 op :: (reduce (op.level + 1) fs e).1,
        .operand) := by
  rw [shift, if_pos h]
  exact if_neg hc

end

end SqlTree
