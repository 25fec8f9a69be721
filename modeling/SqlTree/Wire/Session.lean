import SqlTree.Wire.Execution
import SqlTree.Wire.Format

/-!
# Wire — sessions with a server

`Server.client` is a client of a server: it writes and reads cells in the binary format, checks the
parameters of a statement by number and type, and hands the rest to the server.  `run` takes a
statement through it.
-/

namespace SqlTree.Wire

/-- A server, by what it answers; it may refuse to prepare or to run a statement. -/
structure Server where
  prepare : String → Option Prepared
  run : String → Cells → Option (List Cells)

/-- The cell of a parameter, if the type takes the form. -/
def writeCell (t : WireType) (p : Parameter) : Option Cell :=
  if p.form.fits t then some (p.value.map (p.form.bytes t)) else none

/-- What a cell of a type holds in a form, if the type takes the form. -/
def readCell (form : Form) (t : WireType) (cell : Cell) : Option (Option form.Carrier) :=
  if form.fits t then
    match cell with
    | none => some none
    | some bs => (form.ofBytes? t bs).map some
  else none

/-- The cells of the parameters for types in order, the first of which has the given index. -/
def writeFrom : Nat → List (WireType × Parameter) → Except String Cells
  | _, [] => .ok []
  | index, (t, p) :: rest =>
    match writeCell t p with
    | some cell => do
      let cells ← writeFrom (index + 1) rest
      .ok (cell :: cells)
    | none => .error ("error serializing parameter " ++ toString index)

/-- The cells of the parameters of a statement, which has to have as many. -/
def writeAll (types : List WireType) (ps : List Parameter) : Except String Cells :=
  if ps.length = types.length then writeFrom 0 (types.zip ps)
  else
    .error ("expected " ++ toString types.length ++ " parameters but got " ++ toString ps.length)

/-- An answer of a server, which may refuse to give one. -/
def answered {α : Type} : Option α → Except String α
  | some a => .ok a
  | none => .error "db error"

/-- A client of a server. -/
def Server.client (server : Server) : Client where
  prepare sql :=
    -- a text would end at such a character
    if sql.toList.contains '\x00' then .error "error encoding message to server"
    else answered (server.prepare sql)
  write := writeCell
  bind := writeAll
  run sql cells := answered (server.run sql cells)
  accepts := Form.fits
  read index form t cell :=
    match readCell form t cell with
    | some a? => .ok a?
    | none => .error ("error deserializing column " ++ toString index)

/-- The session of a statement with a server. -/
def run (server : Server) (s : Statement) : Session (List Row) := execute server.client s

end SqlTree.Wire
