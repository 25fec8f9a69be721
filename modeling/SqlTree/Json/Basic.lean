import SqlTree.Number.Binary

/-!
# JSON — values

A number is an integer or a floating-point number, and the two never agree.  The members of an
object stand in ascending order of their keys, each key once: `Json.ofMembers` builds an object
from members in any order, the last one winning among those of one key.

`Json.same` is the comparison of values, which compares floating-point numbers as numbers.
-/

namespace SqlTree
open Number (Binary64)

inductive Json where
  | null
  | bool (b : Bool)
  | int (i : Int)
  | float (x : Binary64)
  | string (s : String)
  | array (items : List Json)
  | object (members : List (String × Json))
deriving Inhabited

namespace Json

/-- The members with the one of `key` set to `value`. -/
def setMember (key : String) (value : Json) : List (String × Json) → List (String × Json)
  | [] => [(key, value)]
  | (k, v) :: rest =>
    if key < k then (key, value) :: (k, v) :: rest
    else if key = k then (key, value) :: rest
    else (k, v) :: setMember key value rest

/-- The object of the given members, taken in order. -/
def ofMembers (members : List (String × Json)) : Json :=
  .object (members.foldl (fun ms m => setMember m.1 m.2 ms) [])

mutual

def same : Json → Json → Bool
  | .null, .null => true
  | .bool a, .bool b => a == b
  | .int i, .int j => i == j
  | .float x, .float y => x.same y
  | .string s, .string t => s == t
  | .array as, .array bs => sameItems as bs
  | .object ms, .object ns => sameMembers ms ns
  | _, _ => false

def sameItems : List Json → List Json → Bool
  | [], [] => true
  | a :: as, b :: bs => same a b && sameItems as bs
  | _, _ => false

def sameMembers : List (String × Json) → List (String × Json) → Bool
  | [], [] => true
  | (k, a) :: ms, (l, b) :: ns => k == l && same a b && sameMembers ms ns
  | _, _ => false

end

end Json

end SqlTree
