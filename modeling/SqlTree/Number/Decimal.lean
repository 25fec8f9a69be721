import SqlTree.Number.Binary

/-!
# Number — reading decimals

`Binary64.ofDecimal` is the number nearest to a decimal with an exponent.  An exponent far out of
range is not computed with: the result is then zero or infinity whatever the digits are.
-/

namespace SqlTree.Number

/-- The number nearest to `± m · 10 ^ e`.  Every number of the format lies between `10 ^ -400` and
`10 ^ 400`. -/
def Binary64.ofDecimal (negative : Bool) (m : Nat) (e : Int) : Binary64 :=
  let size : Int := (toString m).length + e
  if m = 0 ∨ size < -400 then .ofMagnitude negative 0
  else if 400 < size then .ofMagnitude negative BinaryFormat.double.infinity
  else .ofRatio negative (m * tenPow e.toNat) (tenPow (-e).toNat)

end SqlTree.Number
