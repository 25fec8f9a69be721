import SqlTree.Json.Basic

/-!
# JSON — renaming keys

`Json.mapKeys` renames the keys of all objects inside a value.  The members of an object are taken
in ascending order of their keys, so of several that fall on one name the one of the greatest key is
kept.
-/

namespace SqlTree.Json

mutual

def mapKeys (f : String → String) : Json → Json
  | .array items => .array (mapItems f items)
  | .object members => ofMembers (mapMembers f members)
  | j => j

def mapItems (f : String → String) : List Json → List Json
  | [] => []
  | j :: js => mapKeys f j :: mapItems f js

def mapMembers (f : String → String) : List (String × Json) → List (String × Json)
  | [] => []
  | (k, j) :: ms => (f k, mapKeys f j) :: mapMembers f ms

end

end SqlTree.Json
