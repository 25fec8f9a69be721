/-!
# Number — binary floating point

A floating-point number is the word that stores it, so equality of numbers is equality of words
and every operation is exact arithmetic on naturals followed by one rounding.

`BinaryFormat` gives the widths of the fields of a word.  `BinaryFormat.magnitudeOfRatio` rounds a
quotient of naturals to the nearest word, a tie going to the even one, and
`BinaryFormat.significand` reads a word back as `m · 2 ^ q`.  `Binary64` is the number type of the
library; `Binary64.same` is the comparison of numbers, which tells no zeros apart and holds of no
NaN.
-/

namespace SqlTree.Number

/-- Ten to a power. -/
def tenPow (k : Nat) : Nat := Nat.pow 10 k

/-- The quotient of `n` by `d`, rounded to the nearest natural, a tie to the even one. -/
def roundQuotient (n d : Nat) : Nat :=
  let q := n / d
  let r := n % d
  if d < 2 * r ∨ (2 * r = d ∧ q % 2 = 1) then q + 1 else q

/-- The widths of the exponent and fraction fields of a binary interchange format. -/
structure BinaryFormat where
  exponentBits : Nat
  fractionBits : Nat
deriving DecidableEq

namespace BinaryFormat

/-- The format of eight bytes. -/
def double : BinaryFormat := ⟨11, 52⟩

/-- The format of four bytes. -/
def single : BinaryFormat := ⟨8, 23⟩

/-- The bits of a word below its sign. -/
def magnitudeBits (f : BinaryFormat) : Nat := f.exponentBits + f.fractionBits

/-- The least exponent `q` of a number `m · 2 ^ q`, that of the subnormal numbers. -/
def leastExponent (f : BinaryFormat) : Int :=
  2 - (1 <<< (f.exponentBits - 1) : Nat) - f.fractionBits

/-- The magnitude word of infinity; the greater magnitudes are the NaNs. -/
def infinity (f : BinaryFormat) : Nat := ((1 <<< f.exponentBits) - 1) <<< f.fractionBits

/-- The fraction bit that marks a quiet NaN. -/
def quietBit (f : BinaryFormat) : Nat := 1 <<< (f.fractionBits - 1)

/-- A word without its sign. -/
def magnitude (f : BinaryFormat) (word : Nat) : Nat := word % (1 <<< f.magnitudeBits)

/-- Whether the sign bit of a word is set. -/
def isNegative (f : BinaryFormat) (word : Nat) : Bool := (1 <<< f.magnitudeBits) ≤ word

/-- The word of a sign and a magnitude. -/
def withSign (f : BinaryFormat) (negative : Bool) (magnitude : Nat) : Nat :=
  if negative then (1 <<< f.magnitudeBits) + magnitude else magnitude

/-- The number `m · 2 ^ q` of a finite magnitude word. -/
def significand (f : BinaryFormat) (magnitude : Nat) : Nat × Int :=
  let e := magnitude >>> f.fractionBits
  let m := magnitude % (1 <<< f.fractionBits)
  if e = 0 then (m, f.leastExponent)
  else (m + (1 <<< f.fractionBits), f.leastExponent + (e - 1 : Nat))

/-- The greatest `e` with `2 ^ e` at most `n / d`, for positive `n` and `d`. -/
def ratioLog2 (n d : Nat) : Int :=
  let e : Int := (n.log2 : Int) - d.log2
  if d <<< e.toNat ≤ n <<< (-e).toNat then e else e - 1

/-- The magnitude word nearest to `n / d`, a tie going to the even word and a quotient past the
greatest finite number to infinity. -/
def magnitudeOfRatio (f : BinaryFormat) (n d : Nat) : Nat :=
  if n = 0 then 0
  else
    let q := max (ratioLog2 n d - f.fractionBits) f.leastExponent
    let m := roundQuotient (n <<< (-q).toNat) (d <<< q.toNat)
    min (((q - f.leastExponent).toNat <<< f.fractionBits) + m) f.infinity

/-- The magnitude word nearest to `m · 2 ^ q`. -/
def magnitudeOfScaled (f : BinaryFormat) (m : Nat) (q : Int) : Nat :=
  f.magnitudeOfRatio (m <<< q.toNat) (1 <<< (-q).toNat)

/-- The word of `target` nearest to a word of `source`.  A NaN keeps its sign and the leading bits
of its payload, and becomes quiet. -/
def convert (source target : BinaryFormat) (word : Nat) : Nat :=
  let a := source.magnitude word
  let b :=
    if a < source.infinity then
      let (m, q) := source.significand a
      target.magnitudeOfScaled m q
    else if a = source.infinity then target.infinity
    else
      let payload :=
        (a - source.infinity) <<< target.fractionBits >>> source.fractionBits
      target.infinity + (payload ||| target.quietBit)
  target.withSign (source.isNegative word) b

end BinaryFormat

/-- A number of the eight-byte format, given by its word. -/
structure Binary64 where
  bits : UInt64
deriving DecidableEq, Inhabited

namespace Binary64

/-- The number of a sign and a magnitude word. -/
def ofMagnitude (negative : Bool) (magnitude : Nat) : Binary64 :=
  ⟨UInt64.ofNat (BinaryFormat.double.withSign negative magnitude)⟩

/-- The number nearest to `± n / d`. -/
def ofRatio (negative : Bool) (n d : Nat) : Binary64 :=
  ofMagnitude negative (BinaryFormat.double.magnitudeOfRatio n d)

/-- The number nearest to an integer. -/
def ofInt (i : Int) : Binary64 := ofRatio (i < 0) i.natAbs 1

def isNegative (x : Binary64) : Bool := BinaryFormat.double.isNegative x.bits.toNat

def magnitude (x : Binary64) : Nat := BinaryFormat.double.magnitude x.bits.toNat

def isFinite (x : Binary64) : Bool := x.magnitude < BinaryFormat.double.infinity

def isInfinite (x : Binary64) : Bool := x.magnitude = BinaryFormat.double.infinity

def isNaN (x : Binary64) : Bool := BinaryFormat.double.infinity < x.magnitude

def isZero (x : Binary64) : Bool := x.magnitude = 0

/-- The number `m · 2 ^ q`, the sign aside. -/
def significand (x : Binary64) : Nat × Int := BinaryFormat.double.significand x.magnitude

/-- The number with its sign reversed. -/
def negate (x : Binary64) : Binary64 := ofMagnitude (!x.isNegative) x.magnitude

/-- Equality of the numbers themselves: the two zeros agree, and a NaN agrees with nothing. -/
def same (x y : Binary64) : Bool :=
  !x.isNaN && !y.isNaN && (x.bits == y.bits || (x.isZero && y.isZero))

/-- A finite number times a power of ten that is itself first rounded to a number. -/
def timesTenPow (x : Binary64) (k : Nat) : Binary64 :=
  let (m, q) := x.significand
  let (p, r) := (ofRatio false (tenPow k) 1).significand
  ofMagnitude x.isNegative (BinaryFormat.double.magnitudeOfScaled (m * p) (q + r))

/-- A finite number divided by a power of ten that is itself first rounded to a number. -/
def overTenPow (x : Binary64) (k : Nat) : Binary64 :=
  let (m, q) := x.significand
  let (p, r) := (ofRatio false (tenPow k) 1).significand
  let e := q - r
  ofRatio x.isNegative (m <<< e.toNat) (p <<< (-e).toNat)

/-- The word of the four-byte format nearest to the number. -/
def toSingle (x : Binary64) : UInt32 :=
  UInt32.ofNat (BinaryFormat.convert .double .single x.bits.toNat)

/-- The number a word of the four-byte format stands for. -/
def ofSingle (w : UInt32) : Binary64 :=
  ⟨UInt64.ofNat (BinaryFormat.convert .single .double w.toNat)⟩

end Binary64

/-- The word of the four-byte format nearest to an integer. -/
def singleOfInt (i : Int) : UInt32 :=
  UInt32.ofNat <| BinaryFormat.single.withSign (i < 0) <|
    BinaryFormat.single.magnitudeOfRatio i.natAbs 1

end SqlTree.Number
