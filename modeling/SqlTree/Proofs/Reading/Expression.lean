import SqlTree.Proofs.Statement.Parameters

/-!
# Reading — expressions

A tree that combines columns and parameters by operators says how operators are grouped, and
nothing else.  `Expression` keeps just that: an `Atom` is a column or the parameter with a number,
and the other constructors are the operators that are written in front of, between or behind
operands.  `Node.expression?` is the expression of a tree, if it is such a tree; its parameters are
numbered in the order of its bindings.
-/

namespace SqlTree

/-- An operand without operands of its own. -/
inductive Atom where
  | column (table : Option String) (name : String)
  | parameter (k : Nat)
deriving DecidableEq, Inhabited

inductive Expression where
  | atom (a : Atom)
  | binary (left : Expression) (op : BinaryOperator) (right : Expression)
  | not (e : Expression)
  | negate (e : Expression)
  | isNull (negated : Bool) (e : Expression)
deriving DecidableEq, Inhabited

namespace Expression

/-- The atoms of an expression, from left to right. -/
def atoms : Expression → List Atom
  | atom a => [a]
  | binary l _ r => l.atoms ++ r.atoms
  | not e | negate e | isNull _ e => e.atoms

def isAtom : Expression → Bool
  | atom _ => true
  | _ => false

/-- Whether a left operand stands in parentheses. -/
def leftParens (op : BinaryOperator) : Expression → Bool
  | binary _ child _ =>
    child.precedence < op.precedence || (child.precedence == op.precedence && op.isComparison)
  | _ => false

/-- Whether a right operand stands in parentheses. -/
def rightParens (op : BinaryOperator) : Expression → Bool
  | binary _ child _ =>
    child.precedence < op.precedence ||
      (child.precedence == op.precedence && !(child == op && op.isAssociative))
  | _ => false

end Expression

/-! ### The expression of a tree -/

/-- The name between the quotes of an identifier, unless it is raw. -/
def Identifier.quoted? (id : Identifier) : Option String := if id.raw then none else some id.name

def ColumnReference.atom? : ColumnReference → Option Atom
  | ⟨none, c⟩ => c.quoted?.map (.column none)
  | ⟨some t, c⟩ => t.quoted?.bind fun table => c.quoted?.map (.column (some table))

/-- The expression of a node, its parameters being numbered from `k`. -/
def Node.expression? (k : Nat) : Node → Option Expression
  | .identifier id => id.quoted?.map fun name => .atom (.column none name)
  | .columnReference c => c.atom?.map .atom
  | .parameter _ => some (.atom (.parameter k))
  | .binary l op r =>
    -- the parameters of the right operand come behind those of the left one
    (l.expression? k).bind fun left =>
      (r.expression? (k + l.parameters.length)).map fun right => .binary left op right
  | .unary .not n => (n.expression? k).map .not
  | .unary .negate n => (n.expression? k).map .negate
  | .unary .isNull n => (n.expression? k).map (.isNull false)
  | .unary .isNotNull n => (n.expression? k).map (.isNull true)
  | _ => none

theorem Identifier.eq_of_quoted? {id : Identifier} {name : String}
    (h : id.quoted? = some name) : Piece.ofIdentifier id = .quoted name := by
  unfold Identifier.quoted? at h
  unfold Piece.ofIdentifier
  split at h
  · cases h
  · rename_i hr
    rw [if_neg hr, Option.some.inj h]

/-- A column is written as its quoted name, behind its quoted table. -/
theorem ColumnReference.pieces_of_atom? {c : ColumnReference} {a : Atom} (h : c.atom? = some a) :
    (∃ name, a = .column none name ∧ c.pieces = [.quoted name]) ∨
      ∃ table name, a = .column (some table) name ∧
        c.pieces = [.quoted table, .text ".", .quoted name] := by
  obtain ⟨t, c⟩ := c
  cases t with
  | none =>
      obtain ⟨name, hc, rfl⟩ := Option.map_eq_some_iff.mp h
      refine .inl ⟨name, rfl, ?_⟩
      rw [ColumnReference.pieces, qualifierPieces, Identifier.eq_of_quoted? hc]
      rfl
  | some t =>
      obtain ⟨table, ht, h⟩ := Option.bind_eq_some_iff.mp h
      obtain ⟨name, hc, rfl⟩ := Option.map_eq_some_iff.mp h
      refine .inr ⟨table, name, rfl, ?_⟩
      rw [ColumnReference.pieces, qualifierPieces, Identifier.eq_of_quoted? ht,
        Identifier.eq_of_quoted? hc]
      rfl

section
variable {k : Nat} {n l r : Node} {op : BinaryOperator} {e : Expression}

theorem Node.eq_of_expression?_binary (h : (Node.binary l op r).expression? k = some e) :
    ∃ left right, l.expression? k = some left ∧
      r.expression? (k + l.parameters.length) = some right ∧ e = .binary left op right := by
  obtain ⟨left, hl, h⟩ := Option.bind_eq_some_iff.mp h
  obtain ⟨right, hr, rfl⟩ := Option.map_eq_some_iff.mp h
  exact ⟨left, right, hl, hr, rfl⟩

/-- Whether an operand stands in parentheses can be told from its expression. -/
theorem Node.parens_of_expression? (h : n.expression? k = some e) (op : BinaryOperator) :
    n.leftParens op = e.leftParens op ∧ n.rightParens op = e.rightParens op ∧
      n.isAtomic = e.isAtom := by
  cases n with
  | identifier id | columnReference c =>
      obtain ⟨a, -, rfl⟩ := Option.map_eq_some_iff.mp h
      exact ⟨rfl, rfl, rfl⟩
  | parameter v =>
      obtain rfl := Option.some.inj h
      exact ⟨rfl, rfl, rfl⟩
  | binary l child r =>
      obtain ⟨left, right, -, -, rfl⟩ := Node.eq_of_expression?_binary h
      exact ⟨rfl, rfl, rfl⟩
  | unary u n =>
      cases u with
      | not | negate | isNull | isNotNull =>
          obtain ⟨e', -, rfl⟩ := Option.map_eq_some_iff.mp h
          exact ⟨rfl, rfl, rfl⟩
      | _ => cases h
  | _ => cases h

end

end SqlTree
