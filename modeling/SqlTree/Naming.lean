import SqlTree.Text.Casing

/-!
# Naming

Names are spelled in camel case by an application and in snake case by a database.
`Naming.snakeCase` and `Naming.camelCase` convert them in the two directions.  Both walk a name from
left to right and look back at one character.
-/

namespace SqlTree

/-- How names are spelled in the database. -/
structure NamingOptions where
  /-- Names are written in capitals. -/
  upperCase : Bool := false
  /-- A digit after anything but a digit gets an underscore in front. -/
  underscoreBeforeDigits : Bool := false
  /-- A capital gets an underscore in front after another capital as well. -/
  underscoreBetweenUppercaseLetters : Bool := false
  /-- The keys of JSON objects inside rows are left as they are. -/
  maintainNestedObjectKeys : Bool := false
deriving DecidableEq, Inhabited

namespace Naming
open Text

/-- The snake case of a text that follows the character `prev`. -/
def snakeAfter (o : NamingOptions) : Char → List Char → List Char
  | _, [] => []
  | prev, c :: cs =>
    (if o.underscoreBeforeDigits && c.isDigit && !prev.isDigit then ['_', c]
    else if isUpper c then
      if o.underscoreBetweenUppercaseLetters || !isUpper prev then '_' :: lower c else lower c
    else [c]) ++ snakeAfter o c cs

def snakeChars (o : NamingOptions) : List Char → List Char
  | [] => []
  | c :: cs =>
    let s := lower c ++ snakeAfter o c cs
    if o.upperCase then upperText s else s

/-- The camel case of a text that follows the character `prev`. -/
def camelAfter : Char → List Char → List Char
  | _, [] => []
  | prev, c :: cs =>
    (if c = '_' then [] else if prev = '_' then upper c else [c]) ++ camelAfter c cs

/-- The first character is kept, underscores behind it are dropped and raise what follows. -/
def raise : List Char → List Char
  | [] => []
  | c :: cs => c :: camelAfter c cs

/-- A name in capitals is lowered first, if the database writes names in capitals. -/
def camelChars (o : NamingOptions) (s : List Char) : List Char :=
  raise (if o.upperCase && !s.any isLower then lowerText s else s)

/-- The spelling of an application's name in the database. -/
def snakeCase (o : NamingOptions) (s : String) : String := String.ofList (snakeChars o s.toList)

/-- The spelling of a database name in the application. -/
def camelCase (o : NamingOptions) (s : String) : String := String.ofList (camelChars o s.toList)

end Naming

end SqlTree
