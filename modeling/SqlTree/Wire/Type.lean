/-!
# Wire — types

The types of parameters and columns as the database names them.  The types with a value of their own
are constructors of `WireType`; all others are known by their schema and name.
-/

namespace SqlTree.Wire

inductive WireType where
  | bool
  | int2
  | int4
  | int8
  | float4
  | float8
  | text
  | varchar
  | bpchar
  | name
  | unknown
  | bytea
  | date
  | time
  | timestamp
  | timestamptz
  | json
  | jsonb
  | other (schema baseName : String)
deriving DecidableEq, Inhabited

namespace WireType

/-- The types that have a constructor. -/
def known : List WireType :=
  [bool, int2, int4, int8, float4, float8, text, varchar, bpchar, name, unknown, bytea, date, time,
    timestamp, timestamptz, json, jsonb]

/-- The name of a type, behind its schema unless that is one of the usual two. -/
def typeName : WireType → String
  | bool => "bool"
  | int2 => "int2"
  | int4 => "int4"
  | int8 => "int8"
  | float4 => "float4"
  | float8 => "float8"
  | text => "text"
  | varchar => "varchar"
  | bpchar => "bpchar"
  | name => "name"
  | unknown => "unknown"
  | bytea => "bytea"
  | date => "date"
  | time => "time"
  | timestamp => "timestamp"
  | timestamptz => "timestamptz"
  | json => "json"
  | jsonb => "jsonb"
  | other schema baseName =>
    if schema = "pg_catalog" ∨ schema = "public" then baseName else schema ++ "." ++ baseName

/-- The type of a name without a schema. -/
def ofName (s : String) : WireType :=
  (known.find? fun t => t.typeName = s).getD (other "pg_catalog" s)

end WireType

end SqlTree.Wire
