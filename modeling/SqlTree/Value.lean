import SqlTree.Json.Printer
import SqlTree.Calendar.Clock

/-!
# Values

A `Value` is what a statement binds to a placeholder and what a row holds in a field.
`Value.display` is its text for a reader, and `Value.same` compares two values, floating-point
numbers as numbers.
-/

namespace SqlTree
open Number (Binary64 shortest)
open Calendar (Date TimeOfDay Timestamp)

inductive Value where
  | null
  | bool (b : Bool)
  | int (i : Int64)
  | float (x : Binary64)
  | text (s : String)
  | bytes (bs : List UInt8)
  | date (d : Date)
  | time (t : TimeOfDay)
  | timestamp (t : Timestamp)
  | json (j : Json)
deriving Inhabited

namespace Value

def isNull : Value → Bool
  | null => true
  | _ => false

def text? : Value → Option String
  | text s => some s
  | _ => none

def int? : Value → Option Int64
  | int i => some i
  | _ => none

/-- A value that may be absent, absence being null. -/
def ofOption {α : Type} (f : α → Value) : Option α → Value
  | none => null
  | some a => f a

/-- A number in positional notation, with the fewest digits that read back. -/
def floatText (x : Binary64) : String :=
  if x.isNaN then "NaN"
  else
    let body :=
      if x.isInfinite then "inf"
      else if x.isZero then "0"
      else (shortest .double .up x.magnitude).positional
    if x.isNegative then "-" ++ body else body

/-- The text of a value for a reader; bytes are only counted. -/
def display : Value → String
  | null => "NULL"
  | bool b => if b then "true" else "false"
  | int i => toString i.toInt
  | float x => floatText x
  | text s => s
  | bytes bs => "[" ++ toString bs.length ++ " bytes]"
  | date d => d.text
  | time t => t.text
  | timestamp t => t.text
  | json j => j.text

/-- Equality of values; floating-point numbers compare as numbers, inside JSON as well. -/
def same : Value → Value → Bool
  | null, null => true
  | bool a, bool b => a == b
  | int i, int j => i == j
  | float x, float y => x.same y
  | text s, text t => s == t
  | bytes as, bytes bs => as == bs
  | date d, date e => d == e
  | time t, time u => t == u
  | timestamp t, timestamp u => t == u
  | json j, json k => j.same k
  | _, _ => false

end Value

end SqlTree
