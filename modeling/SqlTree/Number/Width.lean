/-!
# Number — words

Which numbers a word of so many bits can hold.
-/

namespace SqlTree.Number

/-- Whether a word without sign holds a number. -/
def fitsUnsigned (bits n : Nat) : Bool := n < (1 <<< bits)

/-- Whether a word in two's complement holds an integer. -/
def fitsSigned (bits : Nat) (i : Int) : Bool :=
  let half : Nat := 1 <<< (bits - 1)
  i < half && -half ≤ i

end SqlTree.Number
