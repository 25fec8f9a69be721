import SqlTree.Toml.Scalar

/-!
# TOML — documents

A document is a sequence of `Line`s: entries and headers.  `Line.readAll` splits a text into them,
and `Entries.ofLines` puts the entries into the tables their headers name.  `read?` does both.

Arrays and inline tables nest at most `maxDepth` deep; the readers recurse on the depth still
allowed.  Those that read a sequence recurse on a bound for its length, for which the length of the
text serves.
-/

namespace SqlTree.Toml

/-- How deep arrays and inline tables may nest. -/
def maxDepth : Nat := 79

/-! ### Values -/

/-- What follows blanks, comments and line ends inside an array.  `fuel` bounds the comments. -/
def skipGaps : Nat → List Char → Option (List Char)
  | 0, _ => none
  | fuel + 1, s =>
    match skipBlankLines s with
    | '#' :: rest => do
      let rest ← newline (rest.dropWhile isPlain)
      skipGaps fuel rest
    | rest => some rest

/-- The values of an array up to its closing bracket, of which there are at most `fuel`. -/
def readItems (value : List Char → Option (Item × List Char)) :
    Nat → List Char → Option (List Item × List Char)
  | 0, _ => none
  | fuel + 1, s => do
    let (item, rest) ← value s
    let rest ← skipGaps (rest.length + 1) rest
    match rest with
    | ']' :: rest => some ([item], rest)
    | ',' :: rest =>
      let rest ← skipGaps (rest.length + 1) rest
      match rest with
      -- a comma may stand behind the last item
      | ']' :: rest => some ([item], rest)
      | rest =>
        let (items, rest) ← readItems value fuel rest
        some (item :: items, rest)
    | _ => none

/-- A key, an equals sign and a value. -/
def readEntry (value : List Char → Option (Item × List Char)) (s : List Char) :
    Option ((List String × String × Item) × List Char) := do
  let ((path, key), rest) ← readKey s
  let rest ← expect '=' rest
  let (item, rest) ← value (skipBlanks rest)
  some ((path, key, item), rest)

/-- The entries of an inline table up to its closing brace, of which there are at most `fuel`. -/
def readEntries (value : List Char → Option (Item × List Char)) :
    Nat → List Char → Option (List (List String × String × Item) × List Char)
  | 0, _ => none
  | fuel + 1, s => do
    let (entry, rest) ← readEntry value s
    match skipBlanks rest with
    | '\x7d' :: rest => some ([entry], rest)
    | ',' :: rest =>
      let (entries, rest) ← readEntries value fuel rest
      some (entry :: entries, rest)
    | _ => none

/-- The entries of an inline table, put together. -/
def inlineEntries (entries : List (List String × String × Item)) : Option Entries :=
  entries.foldlM (fun es e => addDotted e.1 e.2.1 e.2.2 .inline es) []

/-- A value, nested at most `depth` deep. -/
def readValue : Nat → List Char → Option (Item × List Char)
  | 0, '[' :: _ => none
  | 0, '\x7b' :: _ => none
  | depth + 1, '[' :: rest => do
    let rest ← skipGaps (rest.length + 1) rest
    match rest with
    | ']' :: rest => some (.array [], rest)
    | rest =>
      let (items, rest) ← readItems (readValue depth) rest.length rest
      some (.array items, rest)
  | depth + 1, '\x7b' :: rest =>
    match skipBlanks rest with
    | '\x7d' :: rest => some (.table .inline [], rest)
    | rest => do
      let (entries, rest) ← readEntries (readValue depth) rest.length rest
      let es ← inlineEntries entries
      some (.table .inline es, rest)
  | _, s => readScalar s

/-! ### Lines -/

inductive Line where
  | entry (path : List String) (key : String) (item : Item)
  | header (path : List String) (key : String)
  | element (path : List String) (key : String)

namespace Line

/-- The line at the front of a text that is neither blank nor a comment. -/
def read : List Char → Option (Line × List Char)
  | '[' :: '[' :: rest => do
    let ((path, key), rest) ← readKey rest
    let rest ← expect ']' rest
    let rest ← expect ']' rest
    let rest ← lineEnd rest
    some (.element path key, rest)
  | '[' :: rest => do
    let ((path, key), rest) ← readKey rest
    let rest ← expect ']' rest
    let rest ← lineEnd rest
    some (.header path key, rest)
  | s => do
    let ((path, key, item), rest) ← readEntry (readValue maxDepth) s
    let rest ← lineEnd rest
    some (.entry path key item, rest)

/-- The lines of a text, of which there are at most `fuel`. -/
def readMany : Nat → List Char → Option (List Line)
  | 0, _ => none
  | fuel + 1, s =>
    match skipBlanks s with
    | [] => some []
    | '#' :: rest => do
      let rest ← lineEnd ('#' :: rest)
      readMany fuel rest
    | s =>
      match newline s with
      | some rest => readMany fuel rest
      | none => do
        let (line, rest) ← read s
        let lines ← readMany fuel rest
        some (line :: lines)

/-- The lines of a whole text, which may start with a byte order mark. -/
def readAll (s : List Char) : Option (List Line) :=
  match s with
  | '\ufeff' :: rest => readMany (rest.length + 1) rest
  | s => readMany (s.length + 1) s

end Line

/-! ### Documents -/

/-- The tables read so far, and the path of the one that entries go to. -/
structure Document where
  current : Option (List String) := none
  entries : Entries := []

namespace Document

/-- The document with one more line.  Without a header, entries go to the document itself. -/
def add (d : Document) : Line → Option Document
  | .header path key => do
    some ⟨some (path ++ [key]), ← openTable path key d.entries⟩
  | .element path key => do
    some ⟨some (path ++ [key]), ← openElement path key d.entries⟩
  | .entry path key item => do
    -- the entry is added inside the table of the last header
    let here := d.current.getD []
    let es ← descend .implied (addDotted path key item) here .header d.entries
    some { d with entries := es }

end Document

/-- The entries of lines, in their tables. -/
def Entries.ofLines (lines : List Line) : Option Entries :=
  (lines.foldlM Document.add {}).map Document.entries

/-- The table a text stands for. -/
def read? (s : String) : Option Entries := (Line.readAll s.toList).bind Entries.ofLines

end SqlTree.Toml
