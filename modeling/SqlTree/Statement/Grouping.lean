import SqlTree.Node.Basic

/-!
# Statements — grouping

An operand stands in parentheses where it would otherwise be grouped differently:
`Node.leftParens`, `Node.rightParens` and `Node.isAtomic` decide that.
-/

namespace SqlTree.Node

/-- Whether a left operand needs parentheses: it binds less tightly, or it is a comparison under a
comparison. -/
def leftParens (op : BinaryOperator) : Node → Bool
  | binary _ child _ =>
    child.precedence < op.precedence || (child.precedence == op.precedence && op.isComparison)
  | _ => false

/-- Whether a right operand needs parentheses: it binds no tighter, unless it has the same operator
and that one is associative. -/
def rightParens (op : BinaryOperator) : Node → Bool
  | binary _ child _ =>
    child.precedence < op.precedence ||
      (child.precedence == op.precedence && !(child == op && op.isAssociative))
  | _ => false

/-- Whether a node is a single token or carries its own delimiters, so that a unary operator may
stand next to it. -/
def isAtomic : Node → Bool
  | identifier _ | columnReference _ | wildcard _ | call _ _ | valueList _ | select _
  | parameter _ => true
  | _ => false

end SqlTree.Node
