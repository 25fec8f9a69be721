import SqlTree.Json.Numeral

/-!
# JSON — reading

`Json.read?` reads a whole text as one value.  Blanks are allowed around every token; control
characters inside strings, escapes of a lone half of a surrogate pair and text behind the value are
refused.  Arrays and objects nest at most `maxDepth` deep.

The readers take the text as a list of characters and give back what follows the part they read.
Those that read one value recurse on the depth still allowed, and those that read a sequence on a
bound for its length, for which the length of the text serves.
-/

namespace SqlTree.Json
open Text (hexValue?)

/-- How deep arrays and objects may nest. -/
def maxDepth : Nat := 127

def isBlank (c : Char) : Bool := c == ' ' || c == '\n' || c == '\r' || c == '\t'

def skipBlanks (s : List Char) : List Char := s.dropWhile isBlank

/-! ### Strings -/

/-- Four hexadecimal digits. -/
def readUnit : List Char → Option (Nat × List Char)
  | a :: b :: c :: d :: rest => do
    let a ← hexValue? a
    let b ← hexValue? b
    let c ← hexValue? c
    let d ← hexValue? d
    some (((a * 16 + b) * 16 + c) * 16 + d, rest)
  | _ => none

/-- The character of an escape by code units: one unit, or the two halves of a surrogate pair. -/
def readEscapedUnits (s : List Char) : Option (Char × List Char) := do
  let (u, rest) ← readUnit s
  if 0xD800 ≤ u ∧ u < 0xDC00 then
    match rest with
    | '\\' :: 'u' :: rest =>
      let (v, rest) ← readUnit rest
      if 0xDC00 ≤ v ∧ v < 0xE000 then
        some (Char.ofNat (0x10000 + (u - 0xD800) * 0x400 + (v - 0xDC00)), rest)
      else none
    | _ => none
  else if 0xDC00 ≤ u ∧ u < 0xE000 then none
  else some (Char.ofNat u, rest)

/-- The character of an escape, behind its backslash. -/
def readEscape : List Char → Option (Char × List Char)
  | '\x22' :: rest => some ('\x22', rest)
  | '\\' :: rest => some ('\\', rest)
  | '/' :: rest => some ('/', rest)
  | 'b' :: rest => some ('\x08', rest)
  | 'f' :: rest => some ('\x0c', rest)
  | 'n' :: rest => some ('\n', rest)
  | 'r' :: rest => some ('\r', rest)
  | 't' :: rest => some ('\t', rest)
  | 'u' :: rest => readEscapedUnits rest
  | _ => none

/-- The characters of a string up to its closing quote, of which there are at most `fuel`. -/
def readChars : Nat → List Char → Option (List Char × List Char)
  | 0, _ => none
  | _ + 1, [] => none
  | fuel + 1, c :: rest =>
    if c = '\x22' then some ([], rest)
    else if c = '\\' then do
      let (d, rest) ← readEscape rest
      let (cs, rest) ← readChars fuel rest
      some (d :: cs, rest)
    else if c.toNat < 32 then none
    else do
      let (cs, rest) ← readChars fuel rest
      some (c :: cs, rest)

/-- A string, behind its opening quote. -/
def readString (s : List Char) : Option (String × List Char) := do
  let (cs, rest) ← readChars s.length s
  some (String.ofList cs, rest)

/-! ### Values -/

/-- The items of an array, of which there are at most `fuel`, up to its closing bracket. -/
def readItems (item : List Char → Option (Json × List Char)) :
    Nat → List Char → Option (List Json × List Char)
  | 0, _ => none
  | fuel + 1, s => do
    let (j, rest) ← item s
    match skipBlanks rest with
    | ']' :: rest => some ([j], rest)
    | ',' :: rest =>
      let (js, rest) ← readItems item fuel rest
      some (j :: js, rest)
    | _ => none

/-- One member of an object. -/
def readMember (value : List Char → Option (Json × List Char)) (s : List Char) :
    Option ((String × Json) × List Char) :=
  match skipBlanks s with
  | '\x22' :: rest => do
    let (k, rest) ← readString rest
    match skipBlanks rest with
    | ':' :: rest =>
      let (j, rest) ← value rest
      some ((k, j), rest)
    | _ => none
  | _ => none

/-- The members of an object, of which there are at most `fuel`, up to its closing brace. -/
def readMembers (value : List Char → Option (Json × List Char)) :
    Nat → List Char → Option (List (String × Json) × List Char)
  | 0, _ => none
  | fuel + 1, s => do
    let (m, rest) ← readMember value s
    match skipBlanks rest with
    | '\x7d' :: rest => some ([m], rest)
    | ',' :: rest =>
      let (ms, rest) ← readMembers value fuel rest
      some (m :: ms, rest)
    | _ => none

/-- A value that is neither array nor object. -/
def readScalar : List Char → Option (Json × List Char)
  | 'n' :: 'u' :: 'l' :: 'l' :: rest => some (.null, rest)
  | 't' :: 'r' :: 'u' :: 'e' :: rest => some (.bool true, rest)
  | 'f' :: 'a' :: 'l' :: 's' :: 'e' :: rest => some (.bool false, rest)
  | '\x22' :: rest => do
    let (s, rest) ← readString rest
    some (.string s, rest)
  | s => do
    let (n, rest) ← Numeral.scan s
    let j ← n.value?
    some (j, rest)

/-- The value at the front of a text, nested at most `depth` deep. -/
def readValue : Nat → List Char → Option (Json × List Char)
  | 0, s =>
    match skipBlanks s with
    | '[' :: _ => none
    | '\x7b' :: _ => none
    | s => readScalar s
  | depth + 1, s =>
    match skipBlanks s with
    | '[' :: rest =>
      match skipBlanks rest with
      | ']' :: rest => some (.array [], rest)
      | _ => do
        let (js, rest) ← readItems (readValue depth) rest.length rest
        some (.array js, rest)
    | '\x7b' :: rest =>
      match skipBlanks rest with
      | '\x7d' :: rest => some (.object [], rest)
      | _ => do
        let (ms, rest) ← readMembers (readValue depth) rest.length rest
        some (ofMembers ms, rest)
    | s => readScalar s

/-- The value that a whole text stands for. -/
def read? (s : String) : Option Json := do
  let (j, rest) ← readValue maxDepth s.toList
  if (skipBlanks rest).isEmpty then some j else none

end SqlTree.Json
