import SqlTree.Executor
import SqlTree.Wire.Decoding
import SqlTree.Wire.Encoding

/-!
# Wire — executing a statement

`execute` takes a statement through a client.  The client first has the text prepared and tells the
types of the parameters and columns.  Then the bound values are paired with the parameters and sent,
and the rows that come back are decoded.  Each stage stops at its first failure, and the log holds
the text that was prepared and the cells that it was run with.
-/

namespace SqlTree.Wire

inductive Message where
  | prepared (sql : String)
  /-- The prepared text is run with the cells of its parameters. -/
  | bound (parameters : Cells)

/-- A session under way. -/
abbrev Session (α : Type) := Traced Message WireError α

/-- An answer of the client. -/
def ofClient {α : Type} (answer : Except String α) : Session α :=
  Traced.ofExcept (answer.mapError .client)

@[simp] theorem ofClient_ok {α : Type} (a : α) : ofClient (.ok a) = Traced.ok a := rfl

@[simp] theorem ofClient_error {α : Type} (cause : String) :
    ofClient (.error cause : Except String α) = Traced.fail (.client cause) := rfl

/-- The rows of a statement. -/
def execute (client : Client) (s : Statement) : Session (List Row) := do
  let prepared ← ofClient (client.prepare s.sql)
  Traced.report (.prepared s.sql)
  let parameters ← Traced.ofExcept (encodeAll prepared.parameters s.bindings)
  let cells ← ofClient (client.bind prepared.parameters parameters)
  Traced.report (.bound cells)
  let rows ← ofClient (client.run s.sql cells)
  Traced.ofExcept (rows.mapM (decodeRow client prepared.columns))

/-- The driver that has statements run through a client. -/
def driver (client : Client) : Driver := fun s =>
  (execute client s).result.mapError WireError.message

end SqlTree.Wire
