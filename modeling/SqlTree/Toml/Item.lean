import SqlTree.Number.Decimal

/-!
# TOML — values and tables

An `Item` is what a key of a TOML document stands for.  A table remembers how it came about, because
that decides which later lines may still add to it.

`descend` is the one way in which tables are changed: it follows a path of keys, makes the tables
that are missing on it, and changes the table at its end.
-/

namespace SqlTree.Toml
open Number (Binary64)

/-- How a table came about. -/
inductive Origin where
  /-- By a header of its own. -/
  | header
  /-- By a header of a table inside it. -/
  | implied
  /-- By a dotted key. -/
  | dotted
  /-- By braces behind a key. -/
  | inline
deriving DecidableEq

inductive Item where
  | string (s : String)
  | integer (i : Int)
  | float (x : Binary64)
  | boolean (b : Bool)
  /-- A date, a time or both, as written. -/
  | moment (text : String)
  | array (items : List Item)
  | table (origin : Origin) (entries : List (String × Item))
  /-- The tables of a repeated header. -/
  | tables (elements : List (List (String × Item)))

/-- The entries of a table, in the order in which they were added. -/
abbrev Entries := List (String × Item)

namespace Entries

def get? (key : String) (es : Entries) : Option Item :=
  (List.find? (fun e => e.1 = key) es).map Prod.snd

/-- Changes the entry of a key, or adds one at the end. -/
def update (key : String) (f : Option Item → Option Item) : Entries → Option Entries
  | [] => do
    let item ← f none
    some [(key, item)]
  | (k, item) :: rest =>
    if k = key then do
      let item ← f (some item)
      some ((k, item) :: rest)
    else do
      let rest ← update key f rest
      some ((k, item) :: rest)

end Entries

/-- Whether a path may lead into a table.  A path of dotted keys only enters tables that have
neither header nor braces, a path of a header all that have no braces. -/
def Origin.mayEnter (made : Origin) (table : Origin) : Bool :=
  match made with
  | .dotted => table == .dotted || table == .implied
  | _ => table != .inline

/-- Changes the last of a list of tables. -/
def changeLast (f : Entries → Option Entries) : List Entries → Option (List Entries)
  | [] => none
  | [es] => do
    let es ← f es
    some [es]
  | es :: rest => do
    let rest ← changeLast f rest
    some (es :: rest)

/-- Changes the table at the end of a path that starts in a table of the given origin.  Missing
tables are made as `made`, and a repeated table is entered at its last element. -/
def descend (made : Origin) (f : Origin → Entries → Option Entries) :
    List String → Origin → Entries → Option Entries
  | [], origin, es => f origin es
  | key :: path, _, es =>
    es.update key fun
      | none => do
        let sub ← descend made f path made []
        some (.table made sub)
      | some (.table origin sub) =>
        if made.mayEnter origin then do
          let sub ← descend made f path origin sub
          some (.table origin sub)
        else none
      | some (.tables elements) => do
        let elements ← changeLast (descend made f path .header) elements
        some (.tables elements)
      | some _ => none

/-- Adds a new entry. -/
def addEntry (key : String) (item : Item) (es : Entries) : Option Entries :=
  es.update key fun
    | none => some item
    | some _ => none

/-- Adds the entry of a dotted key.  Only such an entry may be added to a table that dotted keys
made, and by them only to such a table. -/
def addDotted (path : List String) (key : String) (item : Item) (origin : Origin) (es : Entries) :
    Option Entries :=
  descend .dotted
    (fun origin es =>
      if (origin == .dotted) == path.isEmpty then none else addEntry key item es)
    path origin es

/-- Opens the table of a header.  A table that is only implied so far becomes this table and moves
to the end. -/
def openTable (path : List String) (key : String) (es : Entries) : Option Entries :=
  descend .implied
    (fun _ es =>
      match es.get? key with
      | none => some (es ++ [(key, .table .header [])])
      | some (.table .implied sub) =>
        some (es.filter (fun e => e.1 ≠ key) ++ [(key, .table .header sub)])
      | some _ => none)
    path .header es

/-- Opens one more table of a repeated header. -/
def openElement (path : List String) (key : String) (es : Entries) : Option Entries :=
  descend .implied
    (fun _ es =>
      es.update key fun
        | none => some (.tables [[]])
        | some (.tables elements) => some (.tables (elements ++ [[]]))
        | some _ => none)
    path .header es

end SqlTree.Toml
