import SqlTree.Value

/-!
# Rows

A row is a list of fields, each a key and a value, in the order in which the database gave them.  A
row straight from a database may repeat a key, and then the first field of the key counts.  The
functions that build a row field by field, `Row.insert` and all that rename keys, merge the fields
of one key: the first of them gives the place and the last the value.
-/

namespace SqlTree

structure Row where
  fields : List (String × Value)
deriving Inhabited

namespace Row

def empty : Row := ⟨[]⟩

/-- The fields with the first one of `key` set to `value`, or with a new one at the end. -/
def setField (key : String) (value : Value) : List (String × Value) → List (String × Value)
  | [] => [(key, value)]
  | (k, v) :: rest => if k = key then (k, value) :: rest else (k, v) :: setField key value rest

def insert (row : Row) (key : String) (value : Value) : Row := ⟨setField key value row.fields⟩

def get? (row : Row) (key : String) : Option Value :=
  (row.fields.find? fun f => f.1 = key).map Prod.snd

def contains (row : Row) (key : String) : Bool := (row.get? key).isSome

def keys (row : Row) : List String := row.fields.map Prod.fst

def size (row : Row) : Nat := row.fields.length

def isEmpty (row : Row) : Bool := row.fields.isEmpty

/-- The row of fields inserted in order. -/
def ofList (fields : List (String × Value)) : Row :=
  fields.foldl (fun row f => row.insert f.1 f.2) empty

/-- Maps every field, merging those that end up with the same key. -/
def mapFields (f : String → Value → String × Value) (row : Row) : Row :=
  ofList (row.fields.map fun e => f e.1 e.2)

/-- Renames every field, merging those that end up with the same key. -/
def mapKeys (f : String → String) (row : Row) : Row :=
  ofList (row.fields.map fun e => (f e.1, e.2))

/-- Renames every field by a function that may have an effect, such as to fail.  The fields are
renamed in order. -/
def mapKeysM {m : Type → Type} [Monad m] (f : String → m String) (row : Row) : m Row :=
  row.fields.foldlM (fun done e => do
    let key ← f e.1
    return done.insert key e.2) empty

def sameFields : List (String × Value) → List (String × Value) → Bool
  | [], [] => true
  | (k, v) :: fs, (l, w) :: gs => k == l && v.same w && sameFields fs gs
  | _, _ => false

/-- Equality of rows, field by field. -/
def same (row other : Row) : Bool := sameFields row.fields other.fields

end Row

end SqlTree
