import SqlTree.RuleSet.Transform
import SqlTree.Statement.Compile
import SqlTree.Row

/-!
# Plugins

A plugin transforms trees on their way to the database and rows on their way back.  A list of
plugins behaves like nested layers: `Plugin.outboundAll` runs the outbound hooks from first to last,
and `Plugin.inboundAll` the inbound hooks from last to first.  Both report every hook they run, and
the first failure ends them.
-/

namespace SqlTree

structure Plugin where
  name : String
  description : String := ""
  outbound : Node → Except QueryError Node
  inbound : List Row → Except QueryError (List Row) := .ok

/-- What happens while a tree is executed. -/
inductive Event where
  /-- The outbound hook of a plugin is given a tree. -/
  | outbound (plugin : String) (node : Node)
  /-- The driver is given a statement. -/
  | driver (statement : Statement)
  /-- The inbound hook of a plugin is given rows. -/
  | inbound (plugin : String) (rows : List Row)

/-- An execution under way; its log holds what happened in it. -/
abbrev Run (α : Type) := Traced Event QueryError α

namespace Plugin

/-- The plugin that transforms trees by rules and leaves rows alone. -/
def ofRules (name : String) (rules : RuleSet) : Plugin := { name, outbound := rules.transform }

/-- Runs the outbound hooks, the first plugin first. -/
def outboundAll : List Plugin → Node → Run Node
  | [], n => .ok n
  | p :: ps, n => do
    Traced.report (.outbound p.name n)
    let n ← Traced.ofExcept (p.outbound n)
    outboundAll ps n

/-- Runs the inbound hooks of plugins given in the order in which they are to run. -/
def inboundInOrder : List Plugin → List Row → Run (List Row)
  | [], rows => .ok rows
  | p :: ps, rows => do
    Traced.report (.inbound p.name rows)
    let rows ← Traced.ofExcept (p.inbound rows)
    inboundInOrder ps rows

/-- Runs the inbound hooks, the last plugin first. -/
def inboundAll (ps : List Plugin) (rows : List Row) : Run (List Row) :=
  inboundInOrder ps.reverse rows

end Plugin

end SqlTree
