import SqlTree.Error

/-!
# Statements — the writer

A statement is written in one pass, and its text and its values grow together.  A `Writer` holds
what has been written so far; a placeholder is numbered by the values bound when it is written.
What a dialect cannot write is an `Offence`, and the first one ends the pass.
-/

namespace SqlTree

/-- SQL text and the values bound to its placeholders. -/
structure Statement where
  sql : String
  bindings : List Value
deriving Inhabited

/-- The statement without text. -/
def Statement.empty : Statement := ⟨"", []⟩

/-- What keeps a tree from being written. -/
inductive Offence where
  | strayColumnDefinition
  | returning
  | offsetWithoutLimit
  | rawFragment (texts bindings : Nat)
deriving DecidableEq, Inhabited

def Offence.error (d : Dialect) : Offence → QueryError
  | strayColumnDefinition =>
    .unsupportedOperation d "a column definition outside create table"
  | returning => .unsupportedOperation d "returning"
  | offsetWithoutLimit => .unsupportedOperation d "offset without limit"
  | rawFragment texts bindings => .invalidRawFragment texts bindings

/-- A pass over a tree; its state is the statement written so far. -/
abbrev Writer := StateT Statement (Except QueryError)

namespace Writer

/-- Writes text. -/
def push (s : String) : Writer Unit := modify fun w => { w with sql := w.sql ++ s }

/-- Binds a value and writes the placeholder for it. -/
def pushValue (d : Dialect) (v : Value) : Writer Unit := do
  modify fun w => { w with bindings := w.bindings ++ [v] }
  -- the value itself counts: placeholders start at one
  push (d.placeholder (← get).bindings.length)

def fail (d : Dialect) (o : Offence) : Writer Unit := throw (o.error d)

def pushIf (written : Bool) (s : String) : Writer Unit := if written then push s else pure ()

/-- Ends the pass with an offence, unless what it objects to is supported. -/
def require (d : Dialect) (supported : Bool) (o : Offence) : Writer Unit :=
  if supported then pure () else fail d o

/-- Writes the comma in front of every item but the first. -/
def separate (isFirst : Bool) : Writer Unit := pushIf (!isFirst) ", "

/-- Writes items that hold no nodes, with commas between them. -/
def pushItems {α : Type} (write : α → Writer Unit) (isFirst : Bool) : List α → Writer Unit
  | [] => pure ()
  | a :: as => do
    separate isFirst
    write a
    pushItems write false as

/-- Writes an operand, between parentheses if it needs them. -/
def pushOperand (parens : Bool) (operand : Writer Unit) : Writer Unit := do
  pushIf parens "("
  operand
  pushIf parens ")"

/-- Writes a clause of several parts, unless it has none. -/
def pushClause (opening : String) (isEmpty : Bool) (parts : Writer Unit) : Writer Unit :=
  if isEmpty then pure ()
  else do
    push opening
    parts

/-- Writes what is selected; nothing in particular is everything. -/
def pushSelections (isEmpty : Bool) (parts : Writer Unit) : Writer Unit :=
  if isEmpty then push "*" else parts

/-- Writes the rows of an insert. -/
def pushRows (d : Dialect) (isEmpty : Bool) (rows : Writer Unit) : Writer Unit :=
  if isEmpty then do
    -- an insert without rows adds one row
    push " "
    push d.defaultValues
  else do
    push " values "
    rows

/-- Writes a returning clause, unless nothing is to be returned. -/
def pushReturning (d : Dialect) (isEmpty : Bool) (returned : Writer Unit) : Writer Unit := do
  require d (isEmpty || d.supportsReturning) .returning
  pushClause " returning " isEmpty returned

end Writer

end SqlTree
