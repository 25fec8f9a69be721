import SqlTree.Calendar.Clock
import SqlTree.Json.Basic
import SqlTree.Number.Binary
import SqlTree.Wire.Type

/-!
# Wire — clients

Statements are run through a `Client`, the library that speaks with the database.  Values go in and
come out in one of several forms, as Booleans, integers of three widths and so on, and the client
turns them into the cells that are sent.  Nothing is said here of how it does so: a client is a
record of functions, and what has to be known of them is a hypothesis where it is used.
-/

namespace SqlTree.Wire

/-- The form in which a value is handed to a client or taken from it. -/
inductive Form where
  | bool
  | int2
  | int4
  | int8
  | float4
  | float8
  | text
  | bytea
  | date
  | time
  | timestamp
  | timestamptz
  | json
deriving DecidableEq

/-- What a form holds; a number in single precision is held as its word. -/
@[reducible] def Form.Carrier : Form → Type
  | bool => Bool
  | int2 => Int16
  | int4 => Int32
  | int8 => Int64
  | float4 => UInt32
  | float8 => Number.Binary64
  | text => String
  | bytea => List UInt8
  | date => Calendar.Date
  | time => Calendar.TimeOfDay
  | timestamp => Calendar.Timestamp
  | timestamptz => Calendar.Instant
  | json => Json

/-- What is handed to a client for a parameter.  A null has no value, but it has a form. -/
structure Parameter where
  form : Form
  value : Option form.Carrier

/-- What is known of a prepared statement. -/
structure Prepared where
  parameters : List WireType
  columns : List (String × WireType)

/-- What is sent for one parameter or comes back in one column, `none` being null. -/
abbrev Cell := Option (List UInt8)

/-- The cells of the parameters of a statement, or of a row. -/
abbrev Cells := List Cell

/-- A client, by what it answers; the string of a failure is its message. -/
structure Client where
  /-- Has the text of a statement prepared. -/
  prepare : String → Except String Prepared
  /-- The cell of a parameter of a type; there is none if the type does not take the form. -/
  write : WireType → Parameter → Option Cell
  /-- The cells of the parameters of a statement, which has parameters of the given types. -/
  bind : List WireType → List Parameter → Except String Cells
  /-- Has a statement run with the cells of its parameters. -/
  run : String → Cells → Except String (List Cells)
  /-- Whether columns of a type can be read in a form. -/
  accepts : Form → WireType → Bool
  /-- What the cell of a column holds in a form, the column being given by its index and type. -/
  read : Nat → (form : Form) → WireType → Cell → Except String (Option form.Carrier)

inductive WireError where
  /-- The client failed. -/
  | client (cause : String)
  | outOfRange (i : Int64) (type : WireType)
  | undecodableType (column : String) (type : WireType)
deriving DecidableEq

def WireError.message : WireError → String
  | client cause => cause
  | outOfRange i t => toString i.toInt ++ " out of range for " ++ t.typeName
  | undecodableType column t =>
    "column `" ++ column ++ "` has type " ++ t.typeName ++
      ", which cannot be decoded; cast it to text or float8 in the query"

end SqlTree.Wire
