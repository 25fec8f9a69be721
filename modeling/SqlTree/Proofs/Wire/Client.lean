import Mathlib.Data.List.Forall2
import SqlTree.Proofs.Calendar.Epoch
import SqlTree.Wire.Client

/-!
# Wire — what is relied on

What has to be known of a client, each law as far as it is documented.  A client
`ChecksParameters` if it refuses any other number of parameters than a statement has, and sends in
order what it writes for them.  It is `Faithful` if it reads back what it wrote, for the types that
go with a form: times as far as they are whole microseconds, and JSON as far as the values are among
those `given`.
-/

namespace SqlTree.Wire

/-- The types that go with a form. -/
inductive Form.Native : Form → WireType → Prop
  | bool : Native .bool .bool
  | int2 : Native .int2 .int2
  | int4 : Native .int4 .int4
  | int8 : Native .int8 .int8
  | float4 : Native .float4 .float4
  | float8 : Native .float8 .float8
  | text : Native .text .text
  | varchar : Native .text .varchar
  | bytea : Native .bytea .bytea
  | date : Native .date .date
  | time : Native .time .time
  | timestamp : Native .timestamp .timestamp
  | timestamptz : Native .timestamptz .timestamptz
  | json : Native .json .json
  | jsonb : Native .json .jsonb

/-- The value is whole in microseconds if it is a time, and among the given ones if it is JSON. -/
def Form.Keeps (given : Json → Prop) : (form : Form) → form.Carrier → Prop
  | .time, c => c.IsPrecise
  | .timestamp, c => c.time.IsPrecise
  | .timestamptz, c => c.utc.time.IsPrecise
  | .json, j => given j
  | _, _ => True

/-- The cells are what the client writes for the parameters, one for each type. -/
def Client.Writes (client : Client) (types : List WireType) (ps : List Parameter) (cells : Cells) :
    Prop :=
  List.Forall₂ (fun p cell => client.write p.1 p.2 = some cell) (types.zip ps) cells

/-- Only as many parameters as there are types are sent, and these as they are written. -/
structure Client.ChecksParameters (client : Client) : Prop where
  count {types : List WireType} {ps : List Parameter} {cells : Cells} :
    client.bind types ps = .ok cells → ps.length = types.length
  order {types : List WireType} {ps : List Parameter} {cells : Cells} :
    client.bind types ps = .ok cells → client.Writes types ps cells

/-- The client writes a cell for a parameter of a type, and reads in the cell what it wrote. -/
def Client.Restores (client : Client) (t : WireType) (p : Parameter) : Prop :=
  ∃ cell, client.write t p = some cell ∧ ∀ index, client.read index p.form t cell = .ok p.value

/-- Reading and writing are inverse to each other where a form goes with a type, and parameters that
are written are sent. -/
structure Client.Faithful (client : Client) (given : Json → Prop) : Prop where
  accepts {form : Form} {t : WireType} : form.Native t → client.accepts form t = true
  bind {types : List WireType} {ps : List Parameter} {cells : Cells} :
    ps.length = types.length → client.Writes types ps cells → client.bind types ps = .ok cells
  null {form : Form} {t : WireType} : form.Native t → client.Restores t ⟨form, none⟩
  value {form : Form} {t : WireType} {a : form.Carrier} :
    form.Native t → form.Keeps given a → client.Restores t ⟨form, some a⟩

end SqlTree.Wire
