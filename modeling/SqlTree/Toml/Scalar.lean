import SqlTree.Number.Width
import SqlTree.Text.Digit
import SqlTree.Toml.Item

/-!
# TOML — strings, numbers and dates

The readers of the values that hold no other values, and of keys.  Each reader takes a text as a
list of characters and gives what it read and what follows it.
-/

namespace SqlTree.Toml
open Number (Binary64 fitsSigned)
open Text (hexValue? numberOf)

/-! ### Blanks and line ends -/

def isBlank (c : Char) : Bool := c == ' ' || c == '\t'

def skipBlanks (s : List Char) : List Char := s.dropWhile isBlank

/-- Whether a character may stand in a comment or in a string. -/
def isPlain (c : Char) : Bool := c == '\t' || (' ' ≤ c && c != '\x7f')

/-- What follows a line end. -/
def newline : List Char → Option (List Char)
  | '\n' :: rest => some rest
  | '\r' :: '\n' :: rest => some rest
  | _ => none

def skipComment : List Char → List Char
  | '#' :: rest => rest.dropWhile isPlain
  | s => s

/-- What follows the end of a line that may hold a comment; the end of the text ends a line too. -/
def lineEnd (s : List Char) : Option (List Char) :=
  match skipComment (skipBlanks s) with
  | [] => some []
  | s => newline s

/-! ### Strings -/

/-- The character of an escape by its code point, given in `n` hexadecimal digits. -/
def readCodePoint : Nat → Nat → List Char → Option (Char × List Char)
  | 0, code, rest => if Nat.isValidChar code then some (Char.ofNat code, rest) else none
  | _ + 1, _, [] => none
  | n + 1, code, c :: rest => do
    let d ← hexValue? c
    readCodePoint n (code * 16 + d) rest

/-- The character of an escape, behind its backslash. -/
def readEscape : List Char → Option (Char × List Char)
  | 'b' :: rest => some ('\x08', rest)
  | 'f' :: rest => some ('\x0c', rest)
  | 'n' :: rest => some ('\n', rest)
  | 'r' :: rest => some ('\r', rest)
  | 't' :: rest => some ('\t', rest)
  | '\\' :: rest => some ('\\', rest)
  | '\x22' :: rest => some ('\x22', rest)
  | 'u' :: rest => readCodePoint 4 0 rest
  | 'U' :: rest => readCodePoint 8 0 rest
  | _ => none

/-- A string up to its closing quote.  `fuel` bounds its length. -/
def readBasic : Nat → List Char → Option (List Char × List Char)
  | 0, _ => none
  | _ + 1, [] => none
  | fuel + 1, c :: rest =>
    if c = '\x22' then some ([], rest)
    else if c = '\\' then do
      let (d, rest) ← readEscape rest
      let (cs, rest) ← readBasic fuel rest
      some (d :: cs, rest)
    else if isPlain c then do
      let (cs, rest) ← readBasic fuel rest
      some (c :: cs, rest)
    else none

/-- A string without escapes up to its closing quote. -/
def readLiteral : List Char → Option (List Char × List Char)
  | [] => none
  | c :: rest =>
    if c = '\x27' then some ([], rest)
    else if isPlain c then do
      let (cs, rest) ← readLiteral rest
      some (c :: cs, rest)
    else none

/-- What follows blanks and line ends. -/
def skipBlankLines : List Char → List Char
  | [] => []
  | '\r' :: '\n' :: rest => skipBlankLines rest
  | c :: rest => if isBlank c || c == '\n' then skipBlankLines rest else c :: rest

/-- What follows a backslash at the end of a line, which takes the blanks and line ends with it. -/
def skipFold (s : List Char) : Option (List Char) := (newline (skipBlanks s)).map skipBlankLines

/-- A string of several lines up to the three quotes that close it, up to two quotes in front of
which belong to it.  `fuel` bounds its length. -/
def readLines (quote : Char) (escapes : Bool) : Nat → List Char → Option (List Char × List Char)
  | 0, _ => none
  | _ + 1, [] => none
  | fuel + 1, c :: rest =>
    if c = quote then
      let run := 1 + (rest.takeWhile (· == quote)).length
      let rest := rest.dropWhile (· == quote)
      if run < 3 then do
        let (cs, rest) ← readLines quote escapes fuel rest
        some (List.replicate run quote ++ cs, rest)
      else
        some (List.replicate (min (run - 3) 2) quote, List.replicate (run - 5) quote ++ rest)
    else if c = '\\' ∧ escapes then
      match skipFold rest with
      | some rest => readLines quote escapes fuel rest
      | none => do
        let (d, rest) ← readEscape rest
        let (cs, rest) ← readLines quote escapes fuel rest
        some (d :: cs, rest)
    else if isPlain c then do
      let (cs, rest) ← readLines quote escapes fuel rest
      some (c :: cs, rest)
    else do
      let rest ← newline (c :: rest)
      let (cs, rest) ← readLines quote escapes fuel rest
      some ('\n' :: cs, rest)

/-- A line end right behind the opening quotes does not belong to the string. -/
def skipFirstNewline (s : List Char) : List Char := (newline s).getD s

def toText (r : List Char × List Char) : String × List Char := (String.ofList r.1, r.2)

/-- A string of any of the four forms. -/
def readString : List Char → Option (String × List Char)
  | '\x22' :: '\x22' :: '\x22' :: rest =>
    (readLines '\x22' true (rest.length + 1) (skipFirstNewline rest)).map toText
  | '\x22' :: rest => (readBasic (rest.length + 1) rest).map toText
  | '\x27' :: '\x27' :: '\x27' :: rest =>
    (readLines '\x27' false (rest.length + 1) (skipFirstNewline rest)).map toText
  | '\x27' :: rest => (readLiteral rest).map toText
  | _ => none

/-! ### Keys -/

def isBare (c : Char) : Bool :=
  ('a' ≤ c && c ≤ 'z') || ('A' ≤ c && c ≤ 'Z') || c.isDigit || c == '-' || c == '_'

/-- One part of a key: a string on one line, or letters, digits, hyphens and underscores. -/
def readKeyPart : List Char → Option (String × List Char)
  | '\x22' :: rest => (readBasic (rest.length + 1) rest).map toText
  | '\x27' :: rest => (readLiteral rest).map toText
  | s =>
    match s.takeWhile isBare with
    | [] => none
    | cs => some (String.ofList cs, s.dropWhile isBare)

/-- How many parts a key may have. -/
def maxKeyParts : Nat := 79

/-- The parts of a key, with dots between them: those before the last, and the last. -/
def readKeyParts : Nat → List Char → Option ((List String × String) × List Char)
  | 0, _ => none
  | fuel + 1, s => do
    let (part, rest) ← readKeyPart (skipBlanks s)
    match skipBlanks rest with
    | '.' :: rest =>
      let ((path, last), rest) ← readKeyParts fuel rest
      some ((part :: path, last), rest)
    | rest => some (([], part), rest)

def readKey (s : List Char) : Option ((List String × String) × List Char) :=
  readKeyParts maxKeyParts s

/-! ### Numbers -/

/-- The digits behind a digit; an underscore may stand between two of them. -/
def moreDigits (isDigit : Char → Bool) : List Char → Option (List Char × List Char)
  | [] => some ([], [])
  | '_' :: c :: rest =>
    if isDigit c then do
      let (cs, rest) ← moreDigits isDigit rest
      some (c :: cs, rest)
    else none
  | c :: rest =>
    if isDigit c then do
      let (cs, rest) ← moreDigits isDigit rest
      some (c :: cs, rest)
    else if c = '_' then none
    else some ([], c :: rest)

/-- One digit or more. -/
def readDigits (isDigit : Char → Bool) : List Char → Option (List Char × List Char)
  | [] => none
  | c :: rest =>
    if isDigit c then do
      let (cs, rest) ← moreDigits isDigit rest
      some (c :: cs, rest)
    else none

/-- The digits of a decimal number, which start with a zero only if that is all of them. -/
def readWhole : List Char → Option (List Char × List Char)
  | '0' :: rest => some (['0'], rest)
  | s => readDigits Char.isDigit s

/-- An integer within the range of 64 bits. -/
def integer? (negative : Bool) (n : Nat) : Option Item :=
  let i : Int := if negative then -n else n
  if fitsSigned 64 i then some (.integer i) else none

/-- A floating-point number; one that is too great is refused, while one that is too small becomes
minus infinity. -/
def float? (negative : Bool) (m : Nat) (e : Int) : Option Item :=
  let x := Binary64.ofDecimal negative m e
  if x.isInfinite && !negative then none else some (.float x)

/-- The exponent of a floating-point number, behind its mark. -/
def readExponent (s : List Char) : Option (Int × List Char) :=
  let (negative, s) :=
    match s with
    | '-' :: rest => (true, rest)
    | '+' :: rest => (false, rest)
    | s => (false, s)
  do
    let (ds, rest) ← readDigits Char.isDigit s
    let e : Int := numberOf 10 ds
    some (if negative then -e else e, rest)

/-- The fraction and the exponent behind the whole part of a number, or an integer if there are
none. -/
def readRest (negative : Bool) (whole : List Char) : List Char → Option (Item × List Char)
  | '.' :: rest => do
    let (fraction, rest) ← readDigits Char.isDigit rest
    let m := numberOf 10 (whole ++ fraction)
    match rest with
    | 'e' :: rest =>
      let (e, rest) ← readExponent rest
      some (← float? negative m (e - fraction.length), rest)
    | 'E' :: rest =>
      let (e, rest) ← readExponent rest
      some (← float? negative m (e - fraction.length), rest)
    | rest => some (← float? negative m (-fraction.length), rest)
  | 'e' :: rest => do
    let (e, rest) ← readExponent rest
    some (← float? negative (numberOf 10 whole) e, rest)
  | 'E' :: rest => do
    let (e, rest) ← readExponent rest
    some (← float? negative (numberOf 10 whole) e, rest)
  | rest => do some (← integer? negative (numberOf 10 whole), rest)

/-- A number without prefix, behind its sign. -/
def readUnsigned (negative : Bool) : List Char → Option (Item × List Char)
  | 'i' :: 'n' :: 'f' :: rest =>
    some (.float (.ofMagnitude negative Number.BinaryFormat.double.infinity), rest)
  | 'n' :: 'a' :: 'n' :: rest =>
    let double := Number.BinaryFormat.double
    some (.float (.ofMagnitude negative (double.infinity + double.quietBit)), rest)
  | s => do
    let (whole, rest) ← readWhole s
    readRest negative whole rest

/-- An integer in another base, behind its prefix. -/
def readBase (base : Nat) (s : List Char) : Option (Item × List Char) := do
  let isDigit (c : Char) : Bool := (hexValue? c).any (· < base)
  let (ds, rest) ← readDigits isDigit s
  some (← integer? false (numberOf base ds), rest)

def readNumber : List Char → Option (Item × List Char)
  | '+' :: rest => readUnsigned false rest
  | '-' :: rest => readUnsigned true rest
  | '0' :: 'x' :: rest => readBase 16 rest
  | '0' :: 'o' :: rest => readBase 8 rest
  | '0' :: 'b' :: rest => readBase 2 rest
  | s => readUnsigned false s

/-! ### Dates and times -/

/-- A number of exactly two digits. -/
def readTwo : List Char → Option (Nat × List Char)
  | a :: b :: rest =>
    if a.isDigit ∧ b.isDigit then some (numberOf 10 [a, b], rest) else none
  | _ => none

def expect (c : Char) : List Char → Option (List Char)
  | [] => none
  | d :: rest => if d = c then some rest else none

/-- The days of a month. -/
def monthLength (year month : Nat) : Nat :=
  if month = 2 then
    if year % 4 = 0 ∧ (year % 100 ≠ 0 ∨ year % 400 = 0) then 29 else 28
  else if month = 4 ∨ month = 6 ∨ month = 9 ∨ month = 11 then 30
  else 31

/-- What follows a date. -/
def skipDate (s : List Char) : Option (List Char) := do
  let (century, rest) ← readTwo s
  let (year, rest) ← readTwo rest
  let rest ← expect '-' rest
  let (month, rest) ← readTwo rest
  let rest ← expect '-' rest
  let (day, rest) ← readTwo rest
  if 1 ≤ month ∧ month ≤ 12 ∧ 1 ≤ day ∧ day ≤ monthLength (century * 100 + year) month then
    some rest
  else none

def skipFraction : List Char → Option (List Char)
  | '.' :: c :: rest => if c.isDigit then some (rest.dropWhile Char.isDigit) else none
  | '.' :: [] => none
  | rest => some rest

/-- What follows an hour and a minute. -/
def skipHourMinute (s : List Char) : Option (List Char) := do
  let (hour, rest) ← readTwo s
  let rest ← expect ':' rest
  let (minute, rest) ← readTwo rest
  if hour ≤ 23 ∧ minute ≤ 59 then some rest else none

/-- What follows a time of day. -/
def skipTime (s : List Char) : Option (List Char) := do
  let rest ← skipHourMinute s
  let rest ← expect ':' rest
  let (second, rest) ← readTwo rest
  if second ≤ 60 then skipFraction rest else none

/-- What follows the offset of a time, if it has one. -/
def skipOffset : List Char → Option (List Char)
  | 'Z' :: rest => some rest
  | 'z' :: rest => some rest
  | '+' :: rest => skipHourMinute rest
  | '-' :: rest => skipHourMinute rest
  | rest => some rest

/-- What follows the time behind a date.  A blank is only taken up if a time follows it. -/
def skipTimeOfDate : List Char → Option (List Char)
  | 'T' :: rest => (skipTime rest).bind skipOffset
  | 't' :: rest => (skipTime rest).bind skipOffset
  | ' ' :: rest =>
    match readTwo rest with
    | none => some (' ' :: rest)
    | some _ => (skipTime rest).bind skipOffset
  | rest => some rest

/-- Whether a text starts with a year, which makes it a date. -/
def startsDate (s : List Char) : Bool :=
  match s with
  | a :: b :: c :: d :: '-' :: _ => a.isDigit && b.isDigit && c.isDigit && d.isDigit
  | _ => false

/-- Whether a text starts with an hour, which makes it a time. -/
def startsTime (s : List Char) : Bool :=
  match s with
  | a :: b :: ':' :: _ => a.isDigit && b.isDigit
  | _ => false

/-- The date or time that `skip` passes over. -/
def readMoment (skip : List Char → Option (List Char)) (s : List Char) :
    Option (Item × List Char) := do
  let rest ← skip s
  some (.moment (String.ofList (s.take (s.length - rest.length))), rest)

/-! ### Scalars -/

/-- A value that holds no other values. -/
def readScalar (s : List Char) : Option (Item × List Char) :=
  match s with
  | '\x22' :: _ => (readString s).map fun r => (.string r.1, r.2)
  | '\x27' :: _ => (readString s).map fun r => (.string r.1, r.2)
  | 't' :: 'r' :: 'u' :: 'e' :: rest => some (.boolean true, rest)
  | 'f' :: 'a' :: 'l' :: 's' :: 'e' :: rest => some (.boolean false, rest)
  | s =>
    if startsDate s then readMoment (fun s => (skipDate s).bind skipTimeOfDate) s
    else if startsTime s then readMoment skipTime s
    else readNumber s

end SqlTree.Toml
