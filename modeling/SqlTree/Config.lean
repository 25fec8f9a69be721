import SqlTree.Executor
import SqlTree.Toml.Document

/-!
# Configuration

A configuration names the dialect, a default schema and the naming options of an executor.
`Config.ofText` reads it from TOML, `Config.load` from a file, and `Executor.ofConfig` sets up an
executor by it.

Every part may be absent, and keys that are not known are passed over.
-/

namespace SqlTree

structure Config where
  dialect : Dialect := .postgres
  /-- The schema of tables that name none. -/
  schema : Option String := none
  /-- Naming options; names are left alone when they are absent. -/
  naming : Option NamingOptions := none
deriving DecidableEq, Inhabited

namespace Config
open Toml (Item Entries)

/-- Whether an item stands for nothing but its key. -/
def isUnit : Item → Bool
  | .array [] => true
  | .table _ [] => true
  | _ => false

/-- The dialect of an entry whose key names it. -/
def dialectOfEntry (name : String) (content : Item) : Option Dialect :=
  if isUnit content then Dialect.ofName? name else none

/-- A dialect by its name, or as a table with the name as its only key. -/
def readDialect : Item → Option Dialect
  | .string s => Dialect.ofName? s
  | .table _ [(name, content)] => dialectOfEntry name content
  | _ => none

def readSchema : Item → Option String
  | .string s => some s
  | _ => none

def readFlag : Option Item → Option Bool
  | none => some false
  | some (.boolean b) => some b
  | some _ => none

/-- Naming options as a table of flags, or as an array of flags in the order of their fields.  A
date or time is made of parts of its own, none of which is a flag, so it sets none of them. -/
def readNaming : Item → Option NamingOptions
  | .table _ es => do
    let es : Entries := es
    let upperCase ← readFlag (es.get? "upper_case")
    let underscoreBeforeDigits ← readFlag (es.get? "underscore_before_digits")
    let underscoreBetweenUppercaseLetters ←
      readFlag (es.get? "underscore_between_uppercase_letters")
    let maintainNestedObjectKeys ← readFlag (es.get? "maintain_nested_object_keys")
    some ⟨upperCase, underscoreBeforeDigits, underscoreBetweenUppercaseLetters,
      maintainNestedObjectKeys⟩
  | .array items => do
    let upperCase ← readFlag items[0]?
    let underscoreBeforeDigits ← readFlag items[1]?
    let underscoreBetweenUppercaseLetters ← readFlag items[2]?
    let maintainNestedObjectKeys ← readFlag items[3]?
    some ⟨upperCase, underscoreBeforeDigits, underscoreBetweenUppercaseLetters,
      maintainNestedObjectKeys⟩
  | .moment _ => some {}
  | _ => none

/-- The value of a key, if the key is there; a value that cannot be read is a failure. -/
def readKey {α : Type} (read : Item → Option α) : Option Item → Option (Option α)
  | none => some none
  | some item => (read item).map some

/-- The configuration of a table. -/
def ofEntries (es : Entries) : Option Config := do
  let dialect ← readKey readDialect (es.get? "dialect")
  let schema ← readKey readSchema (es.get? "schema")
  let naming ← readKey readNaming (es.get? "camel_case")
  some { dialect := dialect.getD .postgres, schema, naming }

/-- The configuration of a TOML text. -/
def ofText (s : String) : Except QueryError Config :=
  match (Toml.read? s).bind ofEntries with
  | some c => .ok c
  | none => .error (.config .invalid)

/-! ### Files -/

/-- What is found at a path. -/
inductive File where
  | missing
  | unreadable
  | content (bytes : ByteArray)

/-- The text of a file, if it can be read and is UTF-8. -/
def File.text? : File → Option String
  | content bytes => String.fromUTF8? bytes
  | _ => none

/-- The configuration in the file at a path. -/
def load (files : String → File) (path : String) : Except QueryError Config :=
  match (files path).text? with
  | some s => ofText s
  | none => .error (.config (.unreadable path))

/-- The configuration in the file at a path, or the default one if there is no file. -/
def loadOrDefault (files : String → File) (path : String) : Except QueryError Config :=
  match files path with
  | .missing => .ok {}
  | _ => load files path

/-- The directories that decide where the configuration is kept. -/
structure Environment where
  /-- The home directory; when it is empty, the one of the user's account counts. -/
  home : String
  accountHome : String
  /-- The directory of configurations, which only counts if it is absolute. -/
  configHome : Option String := none

/-- A path with one more part. -/
def joinPath (base part : String) : String :=
  if base.endsWith "/" then base ++ part else base ++ "/" ++ part

/-- Where the configuration is kept. -/
def defaultPath (env : Environment) : String :=
  let home := if env.home.isEmpty then env.accountHome else env.home
  let base :=
    match env.configHome with
    | some dir => if dir.startsWith "/" then dir else joinPath home ".config"
    | none => joinPath home ".config"
  joinPath (joinPath base "querycraft") "config.toml"

end Config

/-- The executor of a configuration.  Names are respelled before the schema is added, so that the
schema itself is left as it is configured. -/
def Executor.ofConfig (c : Config) : Executor :=
  { dialect := c.dialect
    plugins := (c.naming.map Plugin.camelCase).toList ++ (c.schema.map Plugin.withSchema).toList }

end SqlTree
