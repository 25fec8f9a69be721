import SqlTree.Json.Basic
import SqlTree.Number.Width
import SqlTree.Text.Digit

/-!
# JSON — numerals

`Numeral.scan` splits a numeral off the front of a text by the grammar of JSON, and
`Numeral.value?` gives its value.  An integer that fits a signed or unsigned word of 64 bits is an
integer, with the exception of `-0`; every other numeral is a floating-point number.

A floating-point numeral keeps a significand of at most 64 bits, scaled by a power of ten.  Digits
of the integer part that no longer fit only raise the exponent.  Digits of the fraction are then
taken up for as long as they fit, and the rest of them is dropped.  Significand and power are each
rounded before they are multiplied or divided, so the value may be off the nearest one by a few
units in the last place.  A numeral past the greatest number has no value.
-/

namespace SqlTree.Json
open Number (Binary64 fitsSigned fitsUnsigned)
open Text (digitValue numberOf)

/-- The parts of a numeral: its digits, and its exponent with the sign. -/
structure Numeral where
  negative : Bool
  whole : List Char
  fraction : Option (List Char)
  exponent : Option (Bool × List Char)

namespace Numeral

/-- The digits at the front of a text, at least one, and what follows them. -/
def scanDigits (s : List Char) : Option (List Char × List Char) :=
  match s.takeWhile Char.isDigit with
  | [] => none
  | ds => some (ds, s.dropWhile Char.isDigit)

/-- The whole part: a zero that no digit follows, or digits that start with none. -/
def scanWhole (s : List Char) : Option (List Char × List Char) := do
  let (ds, rest) ← scanDigits s
  match ds with
  | '0' :: _ :: _ => none
  | ds => some (ds, rest)

def scanFraction : List Char → Option (Option (List Char) × List Char)
  | '.' :: rest => do
    let (ds, rest) ← scanDigits rest
    some (some ds, rest)
  | rest => some (none, rest)

/-- The sign and the digits of an exponent, behind its mark. -/
def scanSigned : List Char → Option ((Bool × List Char) × List Char)
  | '-' :: rest => do
    let (ds, rest) ← scanDigits rest
    some ((true, ds), rest)
  | '+' :: rest => do
    let (ds, rest) ← scanDigits rest
    some ((false, ds), rest)
  | rest => do
    let (ds, rest) ← scanDigits rest
    some ((false, ds), rest)

def scanExponent : List Char → Option (Option (Bool × List Char) × List Char)
  | 'e' :: rest => do
    let (e, rest) ← scanSigned rest
    some (some e, rest)
  | 'E' :: rest => do
    let (e, rest) ← scanSigned rest
    some (some e, rest)
  | rest => some (none, rest)

def scanUnsigned (negative : Bool) (s : List Char) : Option (Numeral × List Char) := do
  let (whole, rest) ← scanWhole s
  let (fraction, rest) ← scanFraction rest
  let (exponent, rest) ← scanExponent rest
  some (⟨negative, whole, fraction, exponent⟩, rest)

/-- The numeral at the front of a text and what follows it. -/
def scan : List Char → Option (Numeral × List Char)
  | '-' :: rest => scanUnsigned true rest
  | s => scanUnsigned false s

/-- The significand extended by digits for as long as it fits 64 bits, and the digits left over. -/
def extend : Nat → List Char → Nat × List Char
  | m, [] => (m, [])
  | m, c :: cs =>
    let n := m * 10 + digitValue c
    if fitsUnsigned 64 n then extend n cs else (m, c :: cs)

/-- Divides by a power of ten in steps of at most `10 ^ 308`, and stops at zero. -/
def divide (x : Binary64) (k : Nat) : Binary64 :=
  if k ≤ 308 then x.overTenPow k
  else if x.isZero then x
  else divide (x.overTenPow 308) (k - 308)
termination_by k

/-- The magnitude `m · 10 ^ e`, unless it is past the greatest number. -/
def scaled (m : Nat) (e : Int) : Option Binary64 :=
  let x := Binary64.ofInt m
  if e < 0 then some (divide x e.natAbs)
  else if 308 < e then if m = 0 then some x else none
  else
    let y := x.timesTenPow e.natAbs
    if y.isInfinite then none else some y

def signedExponent : Option (Bool × List Char) → Int
  | none => 0
  | some (true, ds) => -(numberOf 10 ds)
  | some (false, ds) => numberOf 10 ds

/-- The value of a numeral as a floating-point number. -/
def float? (n : Numeral) : Option Binary64 :=
  let (m, left) := extend 0 n.whole
  let fraction := n.fraction.getD []
  let (m', dropped) := extend m fraction
  let e : Int := left.length - (fraction.length - dropped.length : Nat) + signedExponent n.exponent
  (scaled m' e).map fun x => if n.negative then x.negate else x

/-- The value of a numeral. -/
def value? (n : Numeral) : Option Json :=
  match n.fraction, n.exponent with
  | none, none =>
    let m := numberOf 10 n.whole
    if n.negative then
      if 0 < m ∧ fitsSigned 64 (-m) then some (.int (-m)) else n.float?.map .float
    else if fitsUnsigned 64 m then some (.int m)
    else n.float?.map .float
  | _, _ => n.float?.map .float

end Numeral

end SqlTree.Json
