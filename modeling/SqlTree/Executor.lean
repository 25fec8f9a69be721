import SqlTree.Plugin.CamelCase
import SqlTree.Plugin.WithSchema

/-!
# Executors

An executor takes a tree through its plugins, writes it in its dialect, hands the statement to a
driver and takes the rows back through the plugins.  The stages follow one another, and the first
failure ends the run: nothing after it is run.
-/

namespace SqlTree

/-- What runs a statement against a database; the string of a failure is its cause. -/
abbrev Driver := Statement → Except String (List Row)

structure Executor where
  dialect : Dialect
  plugins : List Plugin := []

namespace Executor

def addPlugin (e : Executor) (p : Plugin) : Executor := { e with plugins := e.plugins ++ [p] }

/-- The statement of a tree after the plugins, and the hooks that were run. -/
def prepare (e : Executor) (n : Node) : Run Statement := do
  let n ← Plugin.outboundAll e.plugins n
  Traced.ofExcept (n.compile e.dialect)

/-- The statement of a tree after the plugins. -/
def compile (e : Executor) (n : Node) : Except QueryError Statement := (e.prepare n).result

/-- The rows of a tree, and everything that was run for them. -/
def execute (e : Executor) (driver : Driver) (n : Node) : Run (List Row) := do
  let s ← e.prepare n
  Traced.report (.driver s)
  let rows ← Traced.ofExcept ((driver s).mapError .driver)
  Plugin.inboundAll e.plugins rows

end Executor

/-- The statements handed to the driver. -/
def driverCalls (events : List Event) : List Statement :=
  events.filterMap fun
    | .driver s => some s
    | _ => none

end SqlTree
