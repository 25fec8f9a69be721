import SqlTree.Row
import SqlTree.Wire.Client

/-!
# Wire — columns

How the cells of a row become values.  The type of a column decides on the form in which its cells
are read, and so on the kind of their values.  Other types than those of `isDecodable` are refused,
even where the cell is null.
-/

namespace SqlTree.Wire

/-- Whether the columns of a type can be read; types without a form of their own are read as text,
if the client has them so. -/
def isDecodable (client : Client) : WireType → Bool
  | .bool | .int2 | .int4 | .int8 | .float4 | .float8 | .bytea | .date | .time | .timestamp
  | .timestamptz | .json | .jsonb => true
  | t => client.accepts .text t

/-- The value of a cell that is read in a form; null has no form. -/
def fetch (client : Client) (index : Nat) (t : WireType) (cell : Cell) (form : Form)
    (f : form.Carrier → Value) : Except WireError Value :=
  match client.read index form t cell with
  | .ok a? => .ok (Value.ofOption f a?)
  | .error cause => .error (.client cause)

/-- The value of the cell of a column, which is given by its index, name and type. -/
def decode (client : Client) (index : Nat) (column : String) (t : WireType) (cell : Cell) :
    Except WireError Value :=
  if isDecodable client t then
    let fetch := fetch client index t cell
    match t with
    | .bool => fetch .bool .bool
    | .int2 => fetch .int2 fun i => .int i.toInt64
    | .int4 => fetch .int4 fun i => .int i.toInt64
    | .int8 => fetch .int8 .int
    | .float4 => fetch .float4 fun w => .float (Number.Binary64.ofSingle w)
    | .float8 => fetch .float8 .float
    | .bytea => fetch .bytea .bytes
    | .date => fetch .date .date
    | .time => fetch .time .time
    | .timestamp => fetch .timestamp .timestamp
    | .timestamptz => fetch .timestamptz fun c => .timestamp c.utc
    | .json | .jsonb => fetch .json .json
    | _ => fetch .text .text
  else .error (.undecodableType column t)

/-- The fields of a row, the first of which has the given index. -/
def decodeFields (client : Client) :
    Nat → List (String × WireType) → Cells → Except WireError (List (String × Value))
  | index, (column, t) :: columns, cell :: cells => do
    let v ← decode client index column t cell
    let fields ← decodeFields client (index + 1) columns cells
    .ok ((column, v) :: fields)
  | _, _, _ => .ok []

def decodeRow (client : Client) (columns : List (String × WireType)) (cells : Cells) :
    Except WireError Row := do
  let fields ← decodeFields client 0 columns cells
  .ok ⟨fields⟩

end SqlTree.Wire
