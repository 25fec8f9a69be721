import SqlTree.Text.CaseTable

/-!
# Text — upper and lower case

The case of characters and texts.  Which letters are upper or lower case and how they map is given
by the Unicode properties; a character may map to several.  ASCII is decided without the tables.

`lowerText` lowers a whole text and knows that a capital sigma at the end of a word becomes a final
one.
-/

namespace SqlTree.Text

def isUpper (c : Char) : Bool :=
  if c.toNat < 128 then 'A' ≤ c && c ≤ 'Z' else uppercaseRuns.any fun r => r.contains c.toNat

def isLower (c : Char) : Bool :=
  if c.toNat < 128 then 'a' ≤ c && c ≤ 'z' else lowercaseRuns.any fun r => r.contains c.toNat

/-- Whether a character is a letter of either case. -/
def isCased (c : Char) : Bool :=
  isUpper c || isLower c || titlecaseRuns.any fun r => r.contains c.toNat

/-- Whether a character is passed over when the ends of a word are looked for. -/
def isCaseIgnorable (c : Char) : Bool :=
  if c.toNat < 128 then c == '\x27' || c == '.' || c == ':' || c == '^' || c == '\x60'
  else caseIgnorableRuns.any fun r => r.contains c.toNat

/-- The image of a character under tables of sequences and shifts. -/
def mapWith (sequences : List (Nat × List Nat)) (shifts : List Shift) (c : Char) : List Char :=
  match sequences.find? fun e => e.1 == c.toNat with
  | some e => e.2.map Char.ofNat
  | none =>
    match shifts.find? fun s => s.contains c.toNat with
    | some s => [Char.ofNat (c.toNat + s.offset).toNat]
    | none => [c]

/-- The upper case of a character. -/
def upper (c : Char) : List Char :=
  if c.toNat < 128 then [c.toUpper] else mapWith upperSequences upperShifts c

/-- The lower case of a character, taken by itself. -/
def lower (c : Char) : List Char :=
  if c.toNat < 128 then [c.toLower] else mapWith lowerSequences lowerShifts c

def upperText (s : List Char) : List Char := s.flatMap upper

/-- Whether the first character that counts is a letter with a case. -/
def meetsLetter (s : List Char) : Bool :=
  match s.dropWhile isCaseIgnorable with
  | [] => false
  | c :: _ => isCased c

/-- Lowers a text that follows another one, given in reverse. -/
def lowerAfter : List Char → List Char → List Char
  | _, [] => []
  | before, c :: rest =>
    (if c = '\u03a3' then
      if meetsLetter before && !meetsLetter rest then ['\u03c2'] else ['\u03c3']
    else lower c) ++ lowerAfter (c :: before) rest

/-- The lower case of a text. -/
def lowerText (s : List Char) : List Char := lowerAfter [] s

end SqlTree.Text
