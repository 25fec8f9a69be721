/-!
# Text — digits

What digits stand for, in bases up to sixteen.  `numberOf` is the number of a list of digits, the
most significant one first.
-/

namespace SqlTree.Text

/-- The value of a hexadecimal digit of either case. -/
def hexValue? (c : Char) : Option Nat :=
  if c.isDigit then some (c.toNat - '0'.toNat)
  else if 'a' ≤ c ∧ c ≤ 'f' then some (c.toNat - 'a'.toNat + 10)
  else if 'A' ≤ c ∧ c ≤ 'F' then some (c.toNat - 'A'.toNat + 10)
  else none

/-- The value of a digit; any other character counts nothing. -/
def digitValue (c : Char) : Nat := (hexValue? c).getD 0

/-- The number of digits in a base. -/
def numberOf (base : Nat) (ds : List Char) : Nat :=
  ds.foldl (fun n c => n * base + digitValue c) 0

/-- The lower-case hexadecimal digit of a number below sixteen. -/
def hexDigit (n : Nat) : Char := "0123456789abcdef".toList.getD n '0'

end SqlTree.Text
