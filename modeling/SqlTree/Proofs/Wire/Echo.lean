import SqlTree.Proofs.Wire.Binding
import SqlTree.Proofs.Wire.Server

/-!
# Wire — values there and back

A type *carries* the values that keep their kind in a column of the type (`Carries`).  Encoding and
decoding go by tables of their own, and the two agree for such pairs: a value is handed to the
client in the form in which the cells of the type are read, as long as the type is not too short for
it (`exists_roundTrips`).  So a client that reads back what it wrote gives back the value.

**There and back** (`Wire.execute_echo`).  So values that are sent to parameters that carry them are
refused only for integers that are too large, before anything is run, and a server that gives the
parameters back as columns gives back the values.
-/

namespace SqlTree

/-- The value is whole in microseconds if it is a time, and among the given ones if it is JSON. -/
def Value.Keeps (given : Json → Prop) : Value → Prop
  | .time t => t.IsPrecise
  | .timestamp t => t.time.IsPrecise
  | .json j => given j
  | _ => True

namespace Wire
open Calendar (Date TimeOfDay Timestamp)
open Number (fitsSigned)

/-- The types that carry values. -/
def carriers : List WireType :=
  [.bool, .int2, .int4, .int8, .float8, .text, .varchar, .bytea, .date, .time, .timestamp,
    .timestamptz, .json, .jsonb]

/-- A value of this kind keeps its kind in a column of the type. -/
inductive Carries : WireType → Value → Prop
  | null {t : WireType} (h : t ∈ carriers) : Carries t .null
  | bool (b : Bool) : Carries .bool (.bool b)
  | int2 (i : Int64) : Carries .int2 (.int i)
  | int4 (i : Int64) : Carries .int4 (.int i)
  | int8 (i : Int64) : Carries .int8 (.int i)
  | float8 (x : Number.Binary64) : Carries .float8 (.float x)
  | text (s : String) : Carries .text (.text s)
  | varchar (s : String) : Carries .varchar (.text s)
  | bytea (bs : List UInt8) : Carries .bytea (.bytes bs)
  | date (d : Date) : Carries .date (.date d)
  | time (c : TimeOfDay) : Carries .time (.time c)
  | timestamp (c : Timestamp) : Carries .timestamp (.timestamp c)
  | timestamptz (c : Timestamp) : Carries .timestamptz (.timestamp c)
  | json (j : Json) : Carries .json (.json j)
  | jsonb (j : Json) : Carries .jsonb (.json j)

/-- The value is an integer that the type is too short for. -/
def OutOfRange : WireType → Value → Prop
  | .int2, .int i => i.toInt < -32768 ∨ 32767 < i.toInt
  | .int4, .int i => i.toInt < -2147483648 ∨ 2147483647 < i.toInt
  | _, _ => False

/-! ### Refused values -/

section
variable {t : WireType} {v : Value} {i : Int64}

theorem fitsSigned_int2_iff : fitsSigned 16 i.toInt = true ↔ ¬OutOfRange .int2 (.int i) := by
  rw [fitsSigned_iff, OutOfRange]
  omega

theorem fitsSigned_int4_iff : fitsSigned 32 i.toInt = true ↔ ¬OutOfRange .int4 (.int i) := by
  rw [fitsSigned_iff, OutOfRange]
  omega

theorem encodeInt_eq_error_iff {err : WireError} :
    encodeInt t i = .error err ↔ OutOfRange t (.int i) ∧ err = .outOfRange i t := by
  cases t with
  | int2 =>
    rw [encodeInt]
    split
    next h => exact iff_of_false nofun fun h' => fitsSigned_int2_iff.1 h h'.1
    next h =>
      rw [fitsSigned_int2_iff, not_not] at h
      rw [and_iff_right h, Except.error.injEq, eq_comm]
  | int4 =>
    rw [encodeInt]
    split
    next h => exact iff_of_false nofun fun h' => fitsSigned_int4_iff.1 h h'.1
    next h =>
      rw [fitsSigned_int4_iff, not_not] at h
      rw [and_iff_right h, Except.error.injEq, eq_comm]
  | _ => exact iff_of_false nofun fun h => h.1

/-- Only an integer that is too large is refused. -/
theorem encode_eq_error_iff {err : WireError} :
    encode t v = .error err ↔ ∃ i, v = .int i ∧ OutOfRange t v ∧ err = .outOfRange i t := by
  cases v with
  | int i =>
    rw [encode, encodeInt_eq_error_iff]
    exact ⟨fun h => ⟨i, rfl, h⟩, fun ⟨_, hi, h⟩ => by cases hi; exact h⟩
  | float x | timestamp c => cases t <;> exact iff_of_false nofun nofun
  | _ => exact iff_of_false nofun nofun

theorem OutOfRange.exists_int (h : OutOfRange t v) : ∃ i, v = .int i := by
  cases v with
  | int i => exact ⟨i, rfl⟩
  | _ => cases t <;> cases h

theorem exists_encode_iff : (∃ p, encode t v = .ok p) ↔ ¬OutOfRange t v := by
  cases hencode : encode t v with
  | ok p =>
    refine iff_of_true ⟨p, rfl⟩ fun h => ?_
    obtain ⟨i, hi⟩ := h.exists_int
    cases hencode.symm.trans (encode_eq_error_iff.2 ⟨i, hi, h, rfl⟩)
  | error err =>
    obtain ⟨i, -, h, -⟩ := encode_eq_error_iff.1 hencode
    exact iff_of_false (fun ⟨_, hp⟩ => nomatch hp) (not_not_intro h)

/-- The type is too short for the integer, and no type before it for its value. -/
def FirstOutOfRange (pairs : List (WireType × Value)) (t : WireType) (i : Int64) : Prop :=
  ∃ before after, pairs = before ++ (t, .int i) :: after ∧
    (∀ p ∈ before, ¬OutOfRange p.1 p.2) ∧ OutOfRange t (.int i)

end

section
variable {types : List WireType} {values : List Value}

/-- Values are refused for the first of them that is out of range. -/
theorem encodeAll_eq_error_outOfRange_iff {err : WireError} :
    encodeAll types values = .error err ↔
      ∃ t i, FirstOutOfRange (types.zip values) t i ∧ err = .outOfRange i t := by
  rw [encodeAll_eq_error_iff]
  constructor
  · rintro ⟨before, ⟨t, v⟩, after, heq, hbefore, herr⟩
    obtain ⟨i, rfl, hi, rfl⟩ := encode_eq_error_iff.1 herr
    exact ⟨t, i, ⟨before, after, heq, fun p hp => exists_encode_iff.1 (hbefore p hp), hi⟩, rfl⟩
  · rintro ⟨t, i, ⟨before, after, heq, hbefore, hi⟩, rfl⟩
    exact ⟨before, (t, .int i), after, heq, fun p hp => exists_encode_iff.2 (hbefore p hp),
      encode_eq_error_iff.2 ⟨i, rfl, hi, rfl⟩⟩

theorem exists_encodeAll_eq_error_iff :
    (∃ err, encodeAll types values = .error err) ↔
      ∃ p ∈ types.zip values, OutOfRange p.1 p.2 := by
  cases hencode : encodeAll types values with
  | ok ps =>
    have hrange : ∀ p ∈ types.zip values, ¬OutOfRange p.1 p.2 :=
      ((List.forall₂_and_left _ ps).1 ((encodeAll_eq_ok_iff.1 hencode).imp fun _ q hq =>
        ⟨exists_encode_iff.1 ⟨q, hq⟩, hq⟩)).1
    exact iff_of_false nofun fun ⟨p, hp, hout⟩ => hrange p hp hout
  | error err =>
    obtain ⟨t, i, ⟨before, after, heq, -, hi⟩, -⟩ :=
      encodeAll_eq_error_outOfRange_iff.1 hencode
    have hmem : (t, .int i) ∈ types.zip values := by
      rw [heq]
      exact List.mem_append_right before List.mem_cons_self
    exact iff_of_true ⟨err, rfl⟩ ⟨_, hmem, hi⟩

end

/-! ### Single values -/

section
variable {client : Client} {given : Json → Prop} {t : WireType} {v : Value}

/-- The value is sent as a cell from which the value is read again. -/
structure Client.RoundTrips (client : Client) (t : WireType) (v : Value) (cell : Cell) : Prop where
  encodes : client.Encodes t v cell
  decode_eq (index : Nat) (column : String) : decode client index column t cell = .ok v

/-- A value comes back if it is handed over in the form in which its type is read, and the client
restores what it is handed over as. -/
theorem exists_roundTrips_of_restores {form : Form} {a? : Option form.Carrier}
    {f : form.Carrier → Value} (hrestores : client.Restores t ⟨form, a?⟩)
    (hencode : encode t v = .ok ⟨form, a?⟩)
    (hdecode : ∀ index column cell,
      decode client index column t cell = fetch client index t cell form f)
    (hv : Value.ofOption f a? = v) : ∃ cell, client.RoundTrips t v cell := by
  obtain ⟨cell, hwrite, hread⟩ := hrestores
  refine ⟨cell, ⟨_, hencode, hwrite⟩, fun index column => ?_⟩
  rw [hdecode, fetch, hread]
  exact congrArg Except.ok hv

theorem toInt64_toInt16 {i : Int64} (h : ¬OutOfRange .int2 (.int i)) :
    i.toInt16.toInt64 = i := by
  rw [OutOfRange] at h
  rw [← Int64.toInt_inj, Int16.toInt_toInt64, Int64.toInt_toInt16]
  exact Int.bmod_eq_of_le (by omega) (by omega)

theorem toInt64_toInt32 {i : Int64} (h : ¬OutOfRange .int4 (.int i)) :
    i.toInt32.toInt64 = i := by
  rw [OutOfRange] at h
  rw [← Int64.toInt_inj, Int32.toInt_toInt64, Int64.toInt_toInt32]
  exact Int.bmod_eq_of_le (by omega) (by omega)

variable (hclient : client.Faithful given)
include hclient

/-- Columns of text are read as text. -/
theorem decode_text (h : Form.Native .text t) (index : Nat) (column : String) (cell : Cell) :
    decode client index column t cell = fetch client index t cell .text .text := by
  have haccepts := hclient.accepts h
  cases h <;> exact if_pos haccepts

/-- Columns are read in the form in which a null is handed over. -/
theorem exists_decode_eq_fetch (h : t ∈ carriers) :
    (nullForm t).Native t ∧ ∃ f, ∀ index column cell,
      decode client index column t cell = fetch client index t cell (nullForm t) f := by
  have htext {t : WireType} (h : Form.Native .text t) := decode_text hclient h
  simp only [carriers, List.mem_cons, List.not_mem_nil, or_false] at h
  rcases h with rfl | rfl | rfl | rfl | rfl | rfl | rfl | rfl | rfl | rfl | rfl | rfl | rfl | rfl
  case inr.inr.inr.inr.inr.inl => exact ⟨.text, _, htext .text⟩
  case inr.inr.inr.inr.inr.inr.inl => exact ⟨.varchar, _, htext .varchar⟩
  all_goals exact ⟨by constructor, _, fun _ _ _ => rfl⟩

/-- A value that its type carries and is not too short for comes back. -/
theorem exists_roundTrips (h : Carries t v) (hrange : ¬OutOfRange t v) (hkeeps : v.Keeps given) :
    ∃ cell, client.RoundTrips t v cell := by
  cases h with
  | null h =>
    obtain ⟨hnative, f, hdecode⟩ := exists_decode_eq_fetch hclient h
    exact exists_roundTrips_of_restores (hclient.null hnative) rfl hdecode rfl
  | bool b =>
    exact exists_roundTrips_of_restores (hclient.value .bool trivial) rfl (fun _ _ _ => rfl) rfl
  | int2 i =>
    refine exists_roundTrips_of_restores (hclient.value .int2 trivial)
      (if_pos (fitsSigned_int2_iff.2 hrange)) (fun _ _ _ => rfl) ?_
    exact congrArg Value.int (toInt64_toInt16 hrange)
  | int4 i =>
    refine exists_roundTrips_of_restores (hclient.value .int4 trivial)
      (if_pos (fitsSigned_int4_iff.2 hrange)) (fun _ _ _ => rfl) ?_
    exact congrArg Value.int (toInt64_toInt32 hrange)
  | int8 i =>
    exact exists_roundTrips_of_restores (hclient.value .int8 trivial) rfl (fun _ _ _ => rfl) rfl
  | float8 x =>
    exact exists_roundTrips_of_restores (hclient.value .float8 trivial) rfl (fun _ _ _ => rfl) rfl
  | text s =>
    exact exists_roundTrips_of_restores (hclient.value .text trivial) rfl
      (decode_text hclient .text) rfl
  | varchar s =>
    exact exists_roundTrips_of_restores (hclient.value .varchar trivial) rfl
      (decode_text hclient .varchar) rfl
  | bytea bs =>
    exact exists_roundTrips_of_restores (hclient.value .bytea trivial) rfl (fun _ _ _ => rfl) rfl
  | date d =>
    exact exists_roundTrips_of_restores (hclient.value .date trivial) rfl (fun _ _ _ => rfl) rfl
  | time c =>
    exact exists_roundTrips_of_restores (hclient.value .time hkeeps) rfl (fun _ _ _ => rfl) rfl
  | timestamp c =>
    exact exists_roundTrips_of_restores (hclient.value .timestamp hkeeps) rfl
      (fun _ _ _ => rfl) rfl
  | timestamptz c =>
    exact exists_roundTrips_of_restores (hclient.value .timestamptz hkeeps) rfl
      (fun _ _ _ => rfl) (congrArg Value.timestamp c.utc_atUtc)
  | json j =>
    exact exists_roundTrips_of_restores (hclient.value .json hkeeps) rfl (fun _ _ _ => rfl) rfl
  | jsonb j =>
    exact exists_roundTrips_of_restores (hclient.value .jsonb hkeeps) rfl (fun _ _ _ => rfl) rfl

end

/-! ### Rows -/

/-- The row of parameters is given back as the one row, in columns of their types. -/
structure Client.Echoes (client : Client) (sql : String) (columns : List (String × WireType)) :
    Prop where
  prepare_eq : client.prepare sql = .ok ⟨columns.map Prod.snd, columns⟩
  run_eq (cells : Cells) : client.run sql cells = .ok [cells]

section
variable {client : Client} {given : Json → Prop} {columns : List (String × WireType)}
  {values : List Value}

theorem decodeFields_cons {index : Nat} {column : String} {t : WireType} {cell : Cell}
    {cells : Cells} {v : Value} {fields : List (String × Value)}
    (hv : decode client index column t cell = .ok v)
    (hfields : decodeFields client (index + 1) columns cells = .ok fields) :
    decodeFields client index ((column, t) :: columns) (cell :: cells) =
      .ok ((column, v) :: fields) := by
  rw [decodeFields, hv, hfields]
  rfl

theorem decodeRow_eq_ok {cells : Cells} {fields : List (String × Value)}
    (h : decodeFields client 0 columns cells = .ok fields) :
    decodeRow client columns cells = .ok ⟨fields⟩ := by
  rw [decodeRow, h]
  rfl

variable (hclient : client.Faithful given)
include hclient

/-- Values are sent as cells that are the fields of the same values. -/
theorem exists_sends (h : List.Forall₂ Carries (columns.map Prod.snd) values)
    (hrange : ∀ p ∈ (columns.map Prod.snd).zip values, ¬OutOfRange p.1 p.2)
    (hkeeps : ∀ v ∈ values, v.Keeps given) :
    ∃ cells, client.Sends (columns.map Prod.snd) values cells ∧
      ∀ index, decodeFields client index columns cells =
        .ok ((columns.map Prod.fst).zip values) := by
  induction columns generalizing values with
  | nil =>
    cases h
    exact ⟨[], .nil, fun _ => rfl⟩
  | cons column columns ih =>
    obtain ⟨name, t⟩ := column
    rw [List.map_cons] at h hrange
    cases h with
    | cons hv hrest =>
      rw [List.zip_cons_cons, List.forall_mem_cons] at hrange
      rw [List.forall_mem_cons] at hkeeps
      obtain ⟨cell, hcell⟩ := exists_roundTrips hclient hv hrange.1 hkeeps.1
      obtain ⟨cells, hsends, hfields⟩ := ih hrest hrange.2 hkeeps.2
      exact ⟨cell :: cells, .cons hcell.encodes hsends, fun index =>
        decodeFields_cons (hcell.decode_eq index name) (hfields (index + 1))⟩

/-- The values of a statement that is echoed come back. -/
theorem execute_echoed {sql : String} (hechoes : client.Echoes sql columns)
    (h : List.Forall₂ Carries (columns.map Prod.snd) values)
    (hrange : ∀ p ∈ (columns.map Prod.snd).zip values, ¬OutOfRange p.1 p.2)
    (hkeeps : ∀ v ∈ values, v.Keeps given) :
    (execute client ⟨sql, values⟩).result = .ok [⟨(columns.map Prod.fst).zip values⟩] := by
  obtain ⟨cells, hsends, hfields⟩ := exists_sends hclient h hrange hkeeps
  obtain ⟨hlength, ps, hps, hcells⟩ := Client.sends_iff.1 hsends
  have hcount : ps.length = (columns.map Prod.snd).length := by
    rw [length_of_encodeAll hps, hlength, Nat.min_self]
  have hbinds : Binds client ⟨sql, values⟩ ⟨columns.map Prod.snd, columns⟩ ps cells :=
    ⟨hechoes.prepare_eq, hps, hclient.bind hcount hcells⟩
  rw [hbinds.result_execute (hechoes.run_eq cells), List.mapM_cons, decodeRow_eq_ok (hfields 0)]
  rfl

end

/-- **There and back.**  Values for parameters that carry them are refused if an integer among them
is out of the range of its parameter, and only then: with the error of the first such integer, and
before anything is run.  Where none is, and the server gives the parameters back as columns of the
same types, a client that is faithful to the values gives the same values in the same order under
whatever names the columns have. -/
theorem execute_echo {types : List WireType} {values : List Value}
    (h : List.Forall₂ Carries types values) :
    ((∃ err, encodeAll types values = .error err) ↔
      ∃ p ∈ types.zip values, OutOfRange p.1 p.2) ∧
    (∀ err, encodeAll types values = .error err →
      (∃ t i, FirstOutOfRange (types.zip values) t i ∧ err = .outOfRange i t) ∧
      ∀ (client : Client) (sql : String) (columns : List (String × WireType)),
        client.prepare sql = .ok ⟨types, columns⟩ →
        (execute client ⟨sql, values⟩).result = .error err ∧
          boundCells (execute client ⟨sql, values⟩).log = []) ∧
    ((∀ p ∈ types.zip values, ¬OutOfRange p.1 p.2) →
      ∀ (client : Client) (given : Json → Prop) (sql : String) (columns : List (String × WireType)),
        client.Faithful given → (∀ v ∈ values, v.Keeps given) →
        columns.map Prod.snd = types → client.Echoes sql columns →
        (execute client ⟨sql, values⟩).result = .ok [⟨(columns.map Prod.fst).zip values⟩]) := by
  refine ⟨exists_encodeAll_eq_error_iff, fun err herr => ⟨?_, ?_⟩, ?_⟩
  · exact encodeAll_eq_error_outOfRange_iff.1 herr
  · intro client sql columns hprepare
    rw [execute_of_encodeAll_eq_error hprepare herr]
    exact ⟨rfl, rfl⟩
  · rintro hrange client given sql columns hclient hkeeps rfl hechoes
    exact execute_echoed hclient hechoes h hrange hkeeps

/-- A server that gives everything back. -/
def echoServer (columns : List (String × WireType)) : Server where
  prepare _ := some ⟨columns.map Prod.snd, columns⟩
  run _ cells := some [cells]

theorem echoes_echoServer {sql : String} (h : sql.toList.contains '\x00' = false)
    (columns : List (String × WireType)) : (echoServer columns).client.Echoes sql columns where
  prepare_eq := if_neg (by rw [h]; exact Bool.false_ne_true)
  run_eq _ := rfl

/-- Columns of every type that carries values. -/
def echoColumns : List (String × WireType) :=
  [("a", .int2), ("b", .int4), ("c", .int8), ("d", .bool), ("e", .float8), ("f", .text),
    ("g", .varchar), ("h", .bytea), ("i", .date), ("j", .time), ("k", .timestamp),
    ("l", .timestamptz), ("m", .json), ("n", .jsonb), ("o", .jsonb)]

def firstDate : Date := ⟨Calendar.firstDay, by decide, by decide⟩

def lastDate : Date := ⟨Calendar.lastDay, by decide, by decide⟩

/-- The last microsecond of a day. -/
def lastMicro : TimeOfDay := { second := 86399, nano := 999999000 }

def flags : Json := .array [.null, .bool false]

def ids : Json := .object [("ids", .array [.int (-1)])]

/-- Values at the edges of their types. -/
def echoValues : List Value :=
  [.int (-32768), .int 2147483647, .int Int64.minValue, .bool true, .float ⟨0x8000000000000000⟩,
    .text "naïve", .text "", .bytes [0, 255], .date firstDate, .time lastMicro,
    .timestamp ⟨firstDate, lastMicro⟩, .timestamp ⟨lastDate, lastMicro⟩,
    .json flags, .json ids, .null]

/-- A long integer, and two that are too large for their types. -/
def longValues : List Value := [.int 32768, .int 32768, .int 2147483648]

theorem execute_echo_edges :
    (execute (echoServer echoColumns).client ⟨"select $1", echoValues⟩).result =
      .ok [⟨(echoColumns.map Prod.fst).zip echoValues⟩] ∧
    (execute (echoServer [("a", .int8), ("b", .int2), ("c", .int4)]).client
      ⟨"select $1", longValues⟩).result = .error (.outOfRange 32768 .int2) ∧
    boundCells (execute (echoServer [("a", .int8), ("b", .int2), ("c", .int4)]).client
      ⟨"select $1", longValues⟩).log = [] := by
  have hsql : "select $1".toList.contains '\x00' = false := by decide
  constructor
  · have hcarries : List.Forall₂ Carries (echoColumns.map Prod.snd) echoValues :=
      .cons (.int2 _) <| .cons (.int4 _) <| .cons (.int8 _) <| .cons (.bool _) <|
      .cons (.float8 _) <| .cons (.text _) <| .cons (.varchar _) <| .cons (.bytea _) <|
      .cons (.date _) <| .cons (.time _) <| .cons (.timestamp _) <| .cons (.timestamptz _) <|
      .cons (.json _) <| .cons (.jsonb _) <| .cons (.null (by decide)) .nil
    have hrange : ∀ p ∈ (echoColumns.map Prod.snd).zip echoValues, ¬OutOfRange p.1 p.2 := by
      simp [echoColumns, echoValues, OutOfRange]
    have hkeeps : ∀ v ∈ echoValues, v.Keeps IsPrinted := by
      have hmicro : lastMicro.IsPrecise := by decide
      have hflags : IsPrinted flags := by rfl
      have hids : IsPrinted ids := by rfl
      simp [echoValues, Value.Keeps, hmicro, hflags, hids]
    exact (execute_echo hcarries).2.2 hrange _ IsPrinted "select $1" echoColumns
      (echoServer echoColumns).faithful_client hkeeps rfl (echoes_echoServer hsql _)
  · have hcarries : List.Forall₂ Carries [.int8, .int2, .int4] longValues :=
      .cons (.int8 _) <| .cons (.int2 _) <| .cons (.int4 _) .nil
    exact ((execute_echo hcarries).2.1 (.outOfRange 32768 .int2) rfl).2 _ "select $1" _
      (echoes_echoServer hsql _).prepare_eq

end Wire

end SqlTree
