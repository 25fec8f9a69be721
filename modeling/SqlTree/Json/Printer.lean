import SqlTree.Json.Basic
import SqlTree.Number.Shortest
import SqlTree.Text.Digit

/-!
# JSON — compact text

`Json.text` writes a value without blanks.  A string escapes the quote, the backslash and the
control characters and nothing else.  A floating-point number is written with the fewest digits
that read back: positionally while the point falls behind the first sixteen digits or at most four
zeros after it, and with a signed exponent otherwise.  A number that is not finite has no JSON text
and is written `null`.
-/

namespace SqlTree
open Number (Binary64 BinaryFormat Decimal shortest)
open Text (hexDigit)

namespace Json

def escapeChar (c : Char) : List Char :=
  match c with
  | '\x22' => ['\\', '\x22']
  | '\\' => ['\\', '\\']
  | '\x08' => ['\\', 'b']
  | '\x0c' => ['\\', 'f']
  | '\n' => ['\\', 'n']
  | '\r' => ['\\', 'r']
  | '\t' => ['\\', 't']
  | c =>
    if c.toNat < 32 then ['\\', 'u', '0', '0', hexDigit (c.toNat / 16), hexDigit (c.toNat % 16)]
    else [c]

/-- A string between quotes, escaped. -/
def quoted (s : String) : String :=
  "\"" ++ String.ofList (s.toList.flatMap escapeChar) ++ "\""

/-- A decimal in the notation its size calls for, always with a point or an exponent. -/
def decimalText (d : Decimal) : String :=
  let p := d.pointPosition
  if 0 ≤ d.exponent ∧ p ≤ 16 then d.positional ++ ".0"
  else if -5 < p ∧ p ≤ 16 then d.positional
  else
    let e := p - 1
    d.scientific ++ "e" ++ (if e < 0 then "-" else "+") ++ toString e.natAbs

def floatText (x : Binary64) : String :=
  if !x.isFinite then "null"
  else
    let body :=
      if x.isZero then "0.0" else decimalText (shortest .double .even x.magnitude)
    if x.isNegative then "-" ++ body else body

mutual

/-- The compact text of a value. -/
def text : Json → String
  | .null => "null"
  | .bool b => if b then "true" else "false"
  | .int i => toString i
  | .float x => floatText x
  | .string s => quoted s
  | .array [] => "[]"
  | .array (j :: js) => "[" ++ j.text ++ itemsText js ++ "]"
  | .object [] => "\x7b\x7d"
  | .object ((k, j) :: ms) => "\x7b" ++ quoted k ++ ":" ++ j.text ++ membersText ms ++ "\x7d"

/-- The items after the first, each behind a comma. -/
def itemsText : List Json → String
  | [] => ""
  | j :: js => "," ++ j.text ++ itemsText js

/-- The members after the first, each behind a comma. -/
def membersText : List (String × Json) → String
  | [] => ""
  | (k, j) :: ms => "," ++ quoted k ++ ":" ++ j.text ++ membersText ms

end

end Json

end SqlTree
