import SqlTree.Number.Binary

/-!
# Number — shortest decimals

`shortest` writes a positive finite number with the fewest digits that read back as the same
number.  The reals that round to `m · 2 ^ q` form an interval, ends included iff `m` is even.  The
search walks the decimal grids from coarse to fine and tests on each the two neighbours of the
number; the first grid with a neighbour inside the interval wins, and of two neighbours the nearer
one.  `Tie` says which of two equally near neighbours is taken.

`Decimal.positional` and `Decimal.digitText` write the result.
-/

namespace SqlTree.Number

/-- The decimal `digits · 10 ^ exponent`. -/
structure Decimal where
  digits : Nat
  exponent : Int
deriving DecidableEq

/-- Which of two neighbours at the same distance is taken. -/
inductive Tie where
  | even
  | up
deriving DecidableEq

/-- The interval of reals that round to one number, in units of `2 ^ unit`: the number is
`centre`, and the ends belong to the interval iff `closed`. -/
structure Interval where
  lower : Nat
  centre : Nat
  upper : Nat
  unit : Int
  closed : Bool

/-- The interval of a positive finite magnitude word.  Below a power of two the numbers lie twice as
dense, so the lower end is nearer there. -/
def Interval.ofMagnitude (f : BinaryFormat) (magnitude : Nat) : Interval :=
  let (m, q) := f.significand magnitude
  let edge := m = (1 <<< f.fractionBits) ∧ f.leastExponent < q
  { lower := if edge then 4 * m - 1 else 4 * m - 2
    centre := 4 * m
    upper := 4 * m + 2
    unit := q - 2
    closed := m % 2 = 0 }

namespace Interval

/-- The length of a unit of the interval.  It and that of a step of the grid of the multiples of
`10 ^ k` are measured by a common length. -/
def scale (i : Interval) (k : Int) : Nat := tenPow (-k).toNat <<< i.unit.toNat

/-- The length of a step of the grid. -/
def step (i : Interval) (k : Int) : Nat := tenPow k.toNat <<< (-i.unit).toNat

/-- The neighbour of the centre on the grid of the multiples of `10 ^ k` that lies in the interval,
the nearer one if both do. -/
def neighbour? (i : Interval) (tie : Tie) (k : Int) : Option Nat :=
  let scale := i.scale k
  let step := i.step k
  let low := i.centre * scale / step
  let above (x y : Nat) := if i.closed then x ≤ y else x < y
  let lowIn : Bool := decide (above (i.lower * scale) (low * step))
  let highIn : Bool := decide (above ((low + 1) * step) (i.upper * scale))
  -- how far the two neighbours are from the centre
  let left := i.centre * scale - low * step
  let right := (low + 1) * step - i.centre * scale
  match lowIn, highIn with
  | false, false => none
  | true, false => some low
  | false, true => some (low + 1)
  | true, true =>
    if left < right then some low
    else if right < left then some (low + 1)
    else
      match tie with
      | .even => some (low + low % 2)
      | .up => some (low + 1)

/-- The first grid at or below `10 ^ k` with a neighbour in the interval. -/
def search (i : Interval) (tie : Tie) : Nat → Int → Decimal
  | 0, k => ⟨i.centre * i.scale k / i.step k, k⟩
  | fuel + 1, k =>
    match i.neighbour? tie k with
    | some d => ⟨d, k⟩
    | none => i.search tie fuel (k - 1)

end Interval

/-- The shortest decimal that reads back as a positive finite magnitude word.  Seventeen digits are
always enough, and the search starts at most three grids above the leading digit. -/
def shortest (f : BinaryFormat) (tie : Tie) (magnitude : Nat) : Decimal :=
  let (m, q) := f.significand magnitude
  let top := (m.log2 + 1 + q) * 30103 / 100000 + 1
  (Interval.ofMagnitude f magnitude).search tie 24 top

namespace Decimal

def digitText (d : Decimal) : String := toString d.digits

/-- The count of digits in front of the decimal point. -/
def pointPosition (d : Decimal) : Int := d.digitText.length + d.exponent

def zeros (n : Nat) : String := String.ofList (List.replicate n '0')

/-- The decimal without an exponent; the point stands only where a digit follows it. -/
def positional (d : Decimal) : String :=
  let p := d.pointPosition
  if 0 ≤ d.exponent then d.digitText ++ zeros d.exponent.toNat
  else if p ≤ 0 then "0." ++ zeros (-p).toNat ++ d.digitText
  else
    -- the point stands between the digits
    let cs := d.digitText.toList
    String.ofList (cs.take p.toNat) ++ "." ++ String.ofList (cs.drop p.toNat)

/-- The digits with a point after the first one, if more follow. -/
def scientific (d : Decimal) : String :=
  match d.digitText.toList with
  | [] => ""
  | [c] => String.ofList [c]
  | c :: cs => String.ofList (c :: '.' :: cs)

end Decimal

end SqlTree.Number
