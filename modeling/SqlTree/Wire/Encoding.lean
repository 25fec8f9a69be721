import SqlTree.Number.Width
import SqlTree.Value
import SqlTree.Wire.Client

/-!
# Wire — parameters

How a bound value becomes a parameter.  The kind of the value and the type of the parameter decide
on the form, and values of some kinds are converted to it.  An integer that a short type cannot hold
is refused.
-/

namespace SqlTree.Wire
open Number (fitsSigned)

/-- The form of a null, which goes by the type alone. -/
def nullForm : WireType → Form
  | .bool => .bool
  | .int2 => .int2
  | .int4 => .int4
  | .int8 => .int8
  | .float4 => .float4
  | .float8 => .float8
  | .bytea => .bytea
  | .date => .date
  | .time => .time
  | .timestamp => .timestamp
  | .timestamptz => .timestamptz
  | .json | .jsonb => .json
  | _ => .text

/-- The parameter of an integer, which is narrowed or converted to the numeric types. -/
def encodeInt (t : WireType) (i : Int64) : Except WireError Parameter :=
  match t with
  | .int2 =>
    if fitsSigned 16 i.toInt then .ok ⟨.int2, some i.toInt16⟩ else .error (.outOfRange i t)
  | .int4 =>
    if fitsSigned 32 i.toInt then .ok ⟨.int4, some i.toInt32⟩ else .error (.outOfRange i t)
  | .float4 => .ok ⟨.float4, some (Number.singleOfInt i.toInt)⟩
  | .float8 => .ok ⟨.float8, some (Number.Binary64.ofInt i.toInt)⟩
  | _ => .ok ⟨.int8, some i⟩

/-- The parameter of a value, for a parameter of a type. -/
def encode (t : WireType) : Value → Except WireError Parameter
  | .null => .ok ⟨nullForm t, none⟩
  | .bool b => .ok ⟨.bool, some b⟩
  | .int i => encodeInt t i
  | .float x =>
    match t with
    | .float4 => .ok ⟨.float4, some x.toSingle⟩
    | _ => .ok ⟨.float8, some x⟩
  | .text s => .ok ⟨.text, some s⟩
  | .bytes bs => .ok ⟨.bytea, some bs⟩
  | .date d => .ok ⟨.date, some d⟩
  | .time c => .ok ⟨.time, some c⟩
  | .timestamp c =>
    match t with
    | .timestamptz => .ok ⟨.timestamptz, some c.atUtc⟩
    | _ => .ok ⟨.timestamp, some c⟩
  | .json j => .ok ⟨.json, some j⟩

/-- The parameters of bound values, the first failure ending the encoding.  Values beyond the types
are left out. -/
def encodeAll (types : List WireType) (values : List Value) : Except WireError (List Parameter) :=
  (types.zip values).mapM fun p => encode p.1 p.2

end SqlTree.Wire
