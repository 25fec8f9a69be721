import SqlTree.Proofs.Wire.Encoding
import SqlTree.Proofs.Wire.Server
import SqlTree.Statement.Compile

/-!
# Wire — what is bound

The values of a statement and the parameters of a prepared statement come from two sources, the tree
and the server's reading of the text.  The two counts differ where the text of a raw fragment
swallows a placeholder, as a comment or a literal does.  `execute` pairs values and parameters in
order and ends at the end of the shorter list, so that a client sees no surplus of values.

**Bindings** (`Wire.execute_bindings`).  Nothing is bound but the encodings of a front part of the
values, one for each parameter.  Either all values are bound or the statement is not run, unless
there are more values than parameters: the values beyond the parameters are not looked at, and the
session is that of the statement without them.
-/

namespace SqlTree.Wire

/-- The cell is what the client writes for a value as a parameter of a type. -/
def Client.Encodes (client : Client) (t : WireType) (v : Value) (cell : Cell) : Prop :=
  ∃ p, encode t v = .ok p ∧ client.write t p = some cell

/-- The cells are the encodings of the values in order, one for each type. -/
inductive Client.Sends (client : Client) : List WireType → List Value → Cells → Prop
  | nil : client.Sends [] [] []
  | cons {t : WireType} {v : Value} {cell : Cell} {types : List WireType} {values : List Value}
      {cells : Cells} (h : client.Encodes t v cell) (hrest : client.Sends types values cells) :
      client.Sends (t :: types) (v :: values) (cell :: cells)

/-- The parameters that a statement was run with. -/
def boundCells (log : List Message) : List Cells :=
  log.filterMap fun
    | .bound cells => some cells
    | .prepared _ => none

/-- How many parameters a prepared statement of a text has. -/
def Client.parameterCount (client : Client) (sql : String) : Nat :=
  match client.prepare sql with
  | .ok prepared => prepared.parameters.length
  | .error _ => 0

/-- All the values of a statement are bound, or it is not run. -/
def KeepsBindings (client : Client) (s : Statement) : Prop :=
  (∃ prepared cells, client.prepare s.sql = .ok prepared ∧
    client.Sends prepared.parameters s.bindings cells ∧
    boundCells (execute client s).log = [cells]) ∨
  (∃ err, (execute client s).result = .error err) ∧ boundCells (execute client s).log = []

/-- The statement is prepared, and there are values left when every parameter has been given one
that can be sent for it. -/
def HasSurplus (client : Client) (s : Statement) : Prop :=
  ∃ prepared sent surplus ps cells, client.prepare s.sql = .ok prepared ∧
    s.bindings = sent ++ surplus ∧ surplus ≠ [] ∧ prepared.parameters.length = sent.length ∧
    encodeAll prepared.parameters sent = .ok ps ∧ client.bind prepared.parameters ps = .ok cells

/-! ### Cells -/

section
variable {client : Client} {types : List WireType} {values : List Value} {cells : Cells}

theorem Client.Sends.length_eq (h : client.Sends types values cells) :
    types.length = values.length := by
  induction h with
  | nil => rfl
  | cons h hrest ih => rw [List.length_cons, List.length_cons, ih]

/-- Values are sent by way of their parameters. -/
theorem Client.sends_iff :
    client.Sends types values cells ↔ types.length = values.length ∧
      ∃ ps, encodeAll types values = .ok ps ∧ client.Writes types ps cells := by
  constructor
  · intro h
    refine ⟨h.length_eq, ?_⟩
    induction h with
    | nil => exact ⟨[], rfl, .nil⟩
    | cons h hrest ih =>
      obtain ⟨p, hp, hcell⟩ := h
      obtain ⟨ps, hps, hcells⟩ := ih
      exact ⟨p :: ps, encodeAll_eq_ok_iff.2 (.cons hp (encodeAll_eq_ok_iff.1 hps)),
        .cons hcell hcells⟩
  · rintro ⟨hlength, ps, hps, hcells⟩
    rw [encodeAll_eq_ok_iff] at hps
    induction types generalizing values ps cells with
    | nil =>
      obtain rfl := List.length_eq_zero_iff.1 hlength.symm
      cases hps
      cases hcells
      exact .nil
    | cons t types ih =>
      obtain ⟨v, values, rfl⟩ := List.exists_cons_of_length_eq_add_one hlength.symm
      cases hps with
      | cons hp hps =>
        cases hcells with
        | cons hcell hcells =>
          exact .cons ⟨_, hp, hcell⟩ (ih (Nat.succ.inj hlength) _ hps hcells)

end

/-! ### Sessions -/

/-- A session that gets as far as to bind parameters. -/
structure Binds (client : Client) (s : Statement) (prepared : Prepared) (ps : List Parameter)
    (cells : Cells) : Prop where
  prepare : client.prepare s.sql = .ok prepared
  encode : encodeAll prepared.parameters s.bindings = .ok ps
  bind : client.bind prepared.parameters ps = .ok cells

section
variable {client : Client} {s : Statement} {prepared : Prepared} {ps : List Parameter}
  {cells : Cells}

theorem Binds.execute_eq (h : Binds client s prepared ps cells) :
    execute client s = ⟨[.prepared s.sql, .bound cells],
      (client.run s.sql cells).mapError .client >>= fun rows =>
        rows.mapM (decodeRow client prepared.columns)⟩ := by
  simp only [execute, h.prepare, ofClient_ok, Traced.bind_ok, h.encode, Traced.ofExcept_ok, h.bind,
    Traced.report, Traced.bind_mk_ok]
  cases client.run s.sql cells <;> rfl

theorem Binds.boundCells_execute (h : Binds client s prepared ps cells) :
    boundCells (execute client s).log = [cells] := by
  rw [h.execute_eq]
  rfl

/-- The rows of a statement that is run are decoded one by one. -/
theorem Binds.result_execute (h : Binds client s prepared ps cells) {rows : List Cells}
    (hrows : client.run s.sql cells = .ok rows) :
    (execute client s).result = rows.mapM (decodeRow client prepared.columns) := by
  rw [h.execute_eq, hrows]
  rfl

/-- Values that cannot be encoded end a session before anything is bound. -/
theorem execute_of_encodeAll_eq_error (hprepare : client.prepare s.sql = .ok prepared)
    {err : WireError} (herr : encodeAll prepared.parameters s.bindings = .error err) :
    execute client s = ⟨[.prepared s.sql], .error err⟩ := by
  simp only [execute, hprepare, ofClient_ok, Traced.bind_ok, herr, Traced.ofExcept_error,
    Traced.bind_fail, Traced.report, Traced.bind_mk_ok]
  rfl

/-- Parameters that the client refuses end a session as well. -/
theorem execute_of_bind_eq_error (hprepare : client.prepare s.sql = .ok prepared)
    (hps : encodeAll prepared.parameters s.bindings = .ok ps) {cause : String}
    (hcause : client.bind prepared.parameters ps = .error cause) :
    execute client s = ⟨[.prepared s.sql], .error (.client cause)⟩ := by
  simp only [execute, hprepare, ofClient_ok, Traced.bind_ok, hps, Traced.ofExcept_ok, hcause,
    ofClient_error, Traced.bind_fail, Traced.report, Traced.bind_mk_ok]
  rfl

section
variable (hclient : client.ChecksParameters)
include hclient

theorem Binds.length_le (h : Binds client s prepared ps cells) :
    prepared.parameters.length ≤ s.bindings.length := by
  rw [← hclient.count h.bind, length_of_encodeAll h.encode]
  exact Nat.min_le_right ..

/-- What is bound are the encodings of as many values as there are parameters. -/
theorem Binds.sends_take (h : Binds client s prepared ps cells) :
    client.Sends prepared.parameters (s.bindings.take prepared.parameters.length) cells := by
  have hlength : prepared.parameters.length =
      (s.bindings.take prepared.parameters.length).length := by
    rw [List.length_take, Nat.min_eq_left (h.length_le hclient)]
  exact Client.sends_iff.2
    ⟨hlength, ps, (encodeAll_take ..).trans h.encode, hclient.order h.bind⟩

/-- Where parameters are bound, all values are if there is one for each parameter. -/
theorem Binds.keepsBindings_iff (h : Binds client s prepared ps cells) :
    KeepsBindings client s ↔ prepared.parameters.length = s.bindings.length := by
  constructor
  · rintro (⟨prepared', cells', hprepare, hsends, -⟩ | ⟨-, hnone⟩)
    · cases h.prepare.symm.trans hprepare
      exact hsends.length_eq
    · cases h.boundCells_execute.symm.trans hnone
  · intro hlength
    have hsends := h.sends_take hclient
    rw [hlength, List.take_length] at hsends
    exact .inl ⟨prepared, cells, h.prepare, hsends, h.boundCells_execute⟩

theorem Binds.hasSurplus_iff (h : Binds client s prepared ps cells) :
    HasSurplus client s ↔ prepared.parameters.length < s.bindings.length := by
  constructor
  · rintro ⟨prepared', sent, surplus, -, -, hprepare, hvalues, hsurplus, hlength, -⟩
    cases h.prepare.symm.trans hprepare
    rw [hvalues, List.length_append, hlength]
    exact Nat.lt_add_of_pos_right (List.length_pos_iff.2 hsurplus)
  · intro hlength
    refine ⟨prepared, s.bindings.take prepared.parameters.length,
      s.bindings.drop prepared.parameters.length, ps, cells, h.prepare,
      (List.take_append_drop ..).symm, ?_, (h.sends_take hclient).length_eq,
      (encodeAll_take ..).trans h.encode, h.bind⟩
    rwa [Ne, List.drop_eq_nil_iff, Nat.not_le]

end

theorem HasSurplus.exists_binds (h : HasSurplus client s) :
    ∃ prepared ps cells, Binds client s prepared ps cells := by
  obtain ⟨prepared, sent, surplus, ps, cells, hprepare, hvalues, -, hlength, hps, hcells⟩ := h
  refine ⟨prepared, ps, cells, hprepare, ?_, hcells⟩
  rw [hvalues, encodeAll_append hlength, hps]

end

section
variable (client : Client) (s : Statement)

/-- A session that does not bind parameters fails. -/
theorem execute_cases :
    (∃ prepared ps cells, Binds client s prepared ps cells) ∨
      (∃ err, (execute client s).result = .error err) ∧
        boundCells (execute client s).log = [] := by
  cases hprepare : client.prepare s.sql with
  | error cause =>
    rw [execute, hprepare]
    exact .inr ⟨⟨_, rfl⟩, rfl⟩
  | ok prepared =>
    cases hps : encodeAll prepared.parameters s.bindings with
    | error err =>
      rw [execute_of_encodeAll_eq_error hprepare hps]
      exact .inr ⟨⟨_, rfl⟩, rfl⟩
    | ok ps =>
      cases hcells : client.bind prepared.parameters ps with
      | error cause =>
        rw [execute_of_bind_eq_error hprepare hps hcells]
        exact .inr ⟨⟨_, rfl⟩, rfl⟩
      | ok cells => exact .inl ⟨prepared, ps, cells, hprepare, hps, hcells⟩

theorem execute_take :
    execute client { s with bindings := s.bindings.take (client.parameterCount s.sql) } =
      execute client s := by
  rw [execute, execute, Client.parameterCount]
  cases client.prepare s.sql with
  | error cause => rfl
  | ok prepared => rw [ofClient_ok, Traced.bind_ok, Traced.bind_ok, encodeAll_take]

/-- **Bindings.**  A session keeps the values of its statement unless it has a surplus of them.
What is bound, if anything is, are the encodings of a front part of the values, one for each
parameter; and the session is that of the statement with as many values as there are parameters. -/
theorem execute_bindings (hclient : client.ChecksParameters) :
    (KeepsBindings client s ↔ ¬HasSurplus client s) ∧
    (boundCells (execute client s).log = [] ∨
      ∃ prepared sent surplus cells, client.prepare s.sql = .ok prepared ∧
        s.bindings = sent ++ surplus ∧ client.Sends prepared.parameters sent cells ∧
        boundCells (execute client s).log = [cells]) ∧
    execute client s =
      execute client { s with bindings := s.bindings.take (client.parameterCount s.sql) } := by
  obtain ⟨prepared, ps, cells, h⟩ | hunbound := execute_cases client s
  · refine ⟨?_, .inr ?_, (execute_take client s).symm⟩
    · rw [h.keepsBindings_iff hclient, h.hasSurplus_iff hclient, Nat.not_lt]
      exact ⟨Nat.le_of_eq ∘ Eq.symm, Nat.le_antisymm (h.length_le hclient)⟩
    · exact ⟨prepared, _, _, cells, h.prepare, (List.take_append_drop ..).symm,
        h.sends_take hclient, h.boundCells_execute⟩
  · have hno : ¬HasSurplus client s := by
      intro hsurplus
      obtain ⟨prepared, ps, cells, h⟩ := hsurplus.exists_binds
      cases h.boundCells_execute.symm.trans hunbound.2
    exact ⟨iff_of_true (.inr hunbound) hno, .inl hunbound.2, (execute_take client s).symm⟩

end

/-- A server that finds one number in every text; it has nothing to give back. -/
def countingServer : Server where
  prepare _ := some ⟨[.int4], []⟩
  run _ _ := some []

/-- A condition that was struck out as a comment, with the value in it. -/
def struckOut : Node :=
  .rawFragment ["delete from \"person\" where \"age\" > ", " -- and \"id\" = ", ""]
    [.parameter (.int 40), .parameter (.int 7)]

def struckOutStatement : Statement :=
  ⟨"delete from \"person\" where \"age\" > $1 -- and \"id\" = $2", [.int 40, .int 7]⟩

/-- One of the two values is a surplus, and so the statement does not keep them. -/
theorem struckOut_surplus :
    countingServer.client.ChecksParameters ∧ HasSurplus countingServer.client struckOutStatement ∧
      ¬KeepsBindings countingServer.client struckOutStatement := by
  have hclient := countingServer.checksParameters_client
  have hsurplus : HasSurplus countingServer.client struckOutStatement :=
    ⟨⟨[.int4], []⟩, [.int 40], [.int 7], [⟨.int4, some 40⟩], [some [0, 0, 0, 40]], rfl, rfl,
      List.cons_ne_nil _ _, rfl, rfl, rfl⟩
  exact ⟨hclient, hsurplus,
    fun h => (execute_bindings countingServer.client struckOutStatement hclient).1.1 h hsurplus⟩

/-- The statement is run with one of its two values. -/
theorem struckOut_cut :
    struckOut.compile .postgres = .ok struckOutStatement ∧
      boundCells (run countingServer struckOutStatement).log = [[some [0, 0, 0, 40]]] ∧
      (run countingServer struckOutStatement).result = .ok [] ∧
      ¬KeepsBindings countingServer.client struckOutStatement := by
  have hresult : (execute countingServer.client struckOutStatement).result = .ok [] := rfl
  refine ⟨rfl, rfl, hresult, ?_⟩
  rintro (⟨prepared, cells, hprepare, hsends, -⟩ | ⟨⟨err, herr⟩, -⟩)
  · obtain rfl : ⟨[.int4], []⟩ = prepared := Except.ok.inj hprepare
    exact absurd hsends.length_eq (by decide)
  · cases hresult.symm.trans herr

end SqlTree.Wire
