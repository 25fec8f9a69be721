import SqlTree.Number.Width
import SqlTree.Text.Blank
import SqlTree.Wire.Address
import SqlTree.Wire.Bytes

/-!
# Wire — connection strings

A connection string says where a database is and how to connect to it, either as a URL or as a list
of keys and values.  `Settings.read?` reads both forms, and `Settings.targets` pairs the hosts with
their ports.  `connect` tries the targets in order.
-/

namespace SqlTree.Wire
open Number (fitsSigned fitsUnsigned)
open Text (hexValue? numberOf)

/-- What matters of a connection string for finding the database. -/
structure Settings where
  hosts : List String := []
  addresses : List String := []
  ports : List Nat := []
deriving DecidableEq

inductive ConnectionError where
  /-- The string cannot be read. -/
  | malformed
  /-- The string names no host, or its lists do not match. -/
  | inconsistent
  | unreachable
deriving DecidableEq

def ConnectionError.message : ConnectionError → String
  | malformed => "invalid connection string"
  | inconsistent => "invalid configuration"
  | unreachable => "error connecting to server"

/-! ### Single settings -/

/-- The number of a text that is nothing but digits. -/
def digits? (ds : List Char) : Option Nat :=
  if ds.isEmpty ∨ !ds.all Char.isDigit then none else some (numberOf 10 ds)

/-- The number of digits that may have a plus sign. -/
def natural? (s : String) : Option Nat :=
  match s.toList with
  | '+' :: ds => digits? ds
  | ds => digits? ds

/-- The number of digits that may have a sign. -/
def integer? (s : String) : Option Int :=
  match s.toList with
  | '-' :: ds => (digits? ds).map fun n => -n
  | _ => (natural? s).map fun n => n

/-- A port; an empty one is the usual one. -/
def port? (s : String) : Option Nat :=
  if s.isEmpty then some 5432 else (natural? s).filter (fitsUnsigned 16)

/-- The parts of a list with commas between them. -/
def commaParts (s : String) : List String := s.splitOn ","

namespace Settings

/-- The settings, if a check of a value holds. -/
def checked (c : Settings) (valid : Bool) : Option Settings := if valid then some c else none

/-- The settings with the value of one more key. -/
def set (c : Settings) (key value : String) : Option Settings :=
  match key with
  -- any value will do
  | "user" | "password" | "dbname" | "options" | "application_name" => some c
  | "host" => some { c with hosts := c.hosts ++ commaParts value }
  | "hostaddr" =>
    let addresses := commaParts value
    { c with addresses := c.addresses ++ addresses }.checked (addresses.all isAddress)
  | "port" => do
    let ports ← (commaParts value).mapM port?
    some { c with ports := c.ports ++ ports }
  | "sslmode" | "channel_binding" => c.checked (["disable", "prefer", "require"].contains value)
  | "sslnegotiation" => c.checked (["postgres", "direct"].contains value)
  | "target_session_attrs" => c.checked (["any", "read-write", "read-only"].contains value)
  | "load_balance_hosts" => c.checked (["disable", "random"].contains value)
  | "connect_timeout" | "tcp_user_timeout" | "keepalives_idle" | "keepalives_interval" =>
    c.checked ((integer? value).any (fitsSigned 64))
  | "keepalives" => c.checked ((natural? value).any (fitsUnsigned 64))
  | "keepalives_retries" => c.checked ((natural? value).any (fitsUnsigned 32))
  | _ => none

end Settings

/-! ### Keys and values -/

/-- A value without quotes; a backslash takes the next character as it is. -/
def readSimple : List Char → List Char × List Char
  | [] => ([], [])
  | '\\' :: [] => ([], [])
  | '\\' :: c :: rest =>
    let (cs, rest) := readSimple rest
    (c :: cs, rest)
  | c :: rest =>
    if Text.isBlank c then ([], c :: rest)
    else
      let (cs, rest) := readSimple rest
      (c :: cs, rest)

/-- A value in quotes up to the closing one. -/
def readQuoted : List Char → Option (List Char × List Char)
  | [] => none
  | '\x27' :: rest => some ([], rest)
  | '\\' :: [] => none
  | '\\' :: c :: rest => do
    let (cs, rest) ← readQuoted rest
    some (c :: cs, rest)
  | c :: rest => do
    let (cs, rest) ← readQuoted rest
    some (c :: cs, rest)

def readSetting : List Char → Option (List Char × List Char)
  | '\x27' :: rest => readQuoted rest
  | s =>
    match readSimple s with
    | ([], _) => none
    | r => some r

/-- A list of keys and values; it ends where no key follows.  `fuel` bounds their number. -/
def readPairs : Nat → Settings → List Char → Option Settings
  | 0, _, _ => none
  | fuel + 1, c, s =>
    let s := s.dropWhile Text.isBlank
    let isKey (ch : Char) : Bool := !Text.isBlank ch && ch != '='
    match s.takeWhile isKey with
    -- nothing is asked of the text that is left
    | [] => some c
    | key =>
      match (s.dropWhile isKey).dropWhile Text.isBlank with
      | '=' :: rest => do
        let (value, rest) ← readSetting (rest.dropWhile Text.isBlank)
        let c ← c.set (String.ofList key) (String.ofList value)
        readPairs fuel c rest
      | _ => none

/-! ### URLs -/

/-- The bytes of a text in which a percent sign and two hexadecimal digits stand for a byte. -/
def percentBytes : List Char → Bytes
  | [] => []
  | '%' :: a :: b :: rest =>
    match hexValue? a, hexValue? b with
    | some x, some y => UInt8.ofNat (x * 16 + y) :: percentBytes rest
    -- a percent sign without its two digits stands for itself
    | _, _ => textBytes "%" ++ percentBytes (a :: b :: rest)
  | c :: rest => textBytes (String.singleton c) ++ percentBytes rest

/-- The text that a part of a URL stands for, if it is UTF-8. -/
def percentText (s : List Char) : Option String := readText (percentBytes s)

/-- A host of a URL.  One that starts with a slash is a directory of sockets and may hold any
bytes. -/
def urlHost (c : Settings) (s : List Char) : Option Settings := do
  let bytes := percentBytes s
  let host ← if bytes.head? = some 0x2F then some (String.ofList s) else readText bytes
  some { c with hosts := c.hosts ++ [host] }

/-- The host and the port of one part of a URL; a host in brackets may hold colons. -/
def splitPort : List Char → Option (List Char × Option (List Char))
  | '[' :: rest =>
    match rest.dropWhile (· != ']') with
    | [] => none
    | [_] => some (rest.takeWhile (· != ']'), none)
    | _ :: ':' :: port => some (rest.takeWhile (· != ']'), some port)
    | _ => none
  | s =>
    match s.dropWhile (· != ':') with
    | [] => some (s, none)
    | _ :: port => some (s.takeWhile (· != ':'), some port)

def urlHosts : Settings → List (List Char) → Option Settings
  | c, [] => some c
  | c, part :: parts => do
    let (host, port) ← splitPort part
    let c ← urlHost c host
    let port ← percentText (port.getD "5432".toList)
    let c ← c.set "port" port
    urlHosts c parts

/-- The parameters behind the question mark of a URL.  `fuel` bounds their number. -/
def urlParameters : Nat → Settings → List Char → Option Settings
  | _, c, [] => some c
  | 0, _, _ => none
  | fuel + 1, c, s =>
    match s.dropWhile (· != '=') with
    | [] => none
    | _ :: rest => do
      let key ← percentText (s.takeWhile (· != '='))
      let value := rest.takeWhile (· != '&')
      let rest := (rest.dropWhile (· != '&')).drop 1
      -- a host may be a directory here too, and so need not be UTF-8
      let c ← if key = "host" then urlHost c value
        else do
          let value ← percentText value
          c.set key value
      urlParameters fuel c rest

/-- What follows the user and the password of a URL. -/
def skipCredentials (s : List Char) : Option (List Char) :=
  match s.dropWhile (· != '@') with
  | [] => some s
  | _ :: rest => do
    let _ ← percentText ((s.takeWhile (· != '@')).takeWhile (· != ':'))
    some rest

/-- What follows the name of the database in a URL. -/
def skipDatabase : List Char → Option (List Char)
  | '/' :: rest => do
    let _ ← percentText (rest.takeWhile (· != '?'))
    some (rest.dropWhile (· != '?'))
  | s => some s

/-- A URL behind its scheme. -/
def readUrl (s : List Char) : Option Settings := do
  let s ← skipCredentials s
  let isHost (c : Char) : Bool := c != '/' && c != '?'
  let hosts := s.takeWhile isHost
  let c ← if hosts.isEmpty then some {} else urlHosts {} (hosts.splitOn ',')
  let rest ← skipDatabase (s.dropWhile isHost)
  match rest with
  | '?' :: rest => urlParameters rest.length c rest
  | _ => some c

/-! ### Connecting -/

/-- The settings of a connection string. -/
def Settings.read? (s : String) : Option Settings :=
  let cs := s.toList
  match ["postgres://".toList, "postgresql://".toList].find? fun scheme => scheme.isPrefixOf cs with
  | some scheme => readUrl (cs.drop scheme.length)
  | none => readPairs (cs.length + 1) {} cs

/-- A place to connect to. -/
structure Target where
  host : Option String
  address : Option String
  port : Nat
deriving DecidableEq

/-- The places the settings name.  One port serves all hosts, several must be as many as these. -/
def Settings.targets (c : Settings) : Option (List Target) :=
  let count := if c.hosts.isEmpty then c.addresses.length else c.hosts.length
  if count = 0 ∨ (!c.hosts.isEmpty ∧ !c.addresses.isEmpty ∧ c.hosts.length ≠ c.addresses.length) ∨
      (1 < c.ports.length ∧ c.ports.length ≠ count) then none
  else
    some <| (List.range count).map fun i =>
      ⟨c.hosts[i]?, c.addresses[i]?, (c.ports[i]?.or c.ports[0]?).getD 5432⟩

/-- Connects to the first place of a connection string that answers. -/
def connect {α : Type} (dial : Target → Option α) (s : String) : Except ConnectionError α :=
  match Settings.read? s with
  | none => .error .malformed
  | some c =>
    match c.targets with
    | none => .error .inconsistent
    | some targets =>
      match targets.findSome? dial with
      | some a => .ok a
      | none => .error .unreachable

end SqlTree.Wire
