import SqlTree.Calendar.Epoch
import SqlTree.Json.Printer
import SqlTree.Json.Reader
import SqlTree.Wire.Bytes
import SqlTree.Wire.Client

/-!
# Wire — binary format

The types that take the values of a form, and the bytes in which these are sent.  `Form.fits` tells
which types a form goes with, `Form.bytes` writes a value, and `Form.ofBytes?` reads one.
-/

namespace SqlTree.Wire
open Calendar (Date TimeOfDay Timestamp Instant)

/-! ### Types -/

/-- The types whose text stands behind a version byte. -/
def WireType.isVersionedText : WireType → Bool
  | other _ s => ["ltree", "lquery", "ltxtquery"].contains s
  | _ => false

/-- The types of text.  Those that extensions bring along go by their name. -/
def WireType.isText : WireType → Bool
  | text | varchar | bpchar | name | unknown => true
  | other schema s => s == "citext" || (other schema s).isVersionedText
  | _ => false

/-- Whether a type takes values of a form. -/
def Form.fits : Form → WireType → Bool
  | bool, t => t == .bool
  | int2, t => t == .int2
  | int4, t => t == .int4
  | int8, t => t == .int8
  | float4, t => t == .float4
  | float8, t => t == .float8
  | text, t => t.isText
  | bytea, t => t == .bytea
  | date, t => t == .date
  | time, t => t == .time
  | timestamp, t => t == .timestamp
  | timestamptz, t => t == .timestamptz
  | json, t => t == .json || t == .jsonb

/-! ### Bytes -/

/-- Bytes behind a version byte, where there is one. -/
def versioned (hasVersion : Bool) (bs : Bytes) : Bytes := if hasVersion then 1 :: bs else bs

/-- The bytes behind the version byte, where there has to be one. -/
def unversioned : Bool → Bytes → Option Bytes
  | false, bs => some bs
  | true, 1 :: bs => some bs
  | true, _ => none

def readBool : Bytes → Option Bool
  | [b] => some (b ≠ 0)
  | _ => none

/-- The bytes of a value as one of a type. -/
def Form.bytes (t : WireType) : (form : Form) → form.Carrier → Bytes
  | bool, b => [if b then 1 else 0]
  | int2, i => intBytes 2 i.toInt
  | int4, i => intBytes 4 i.toInt
  | int8, i => intBytes 8 i.toInt
  | float4, w => natBytes 4 w.toNat
  | float8, x => natBytes 8 x.bits.toNat
  | text, s => versioned t.isVersionedText (textBytes s)
  | bytea, bs => bs
  | date, d => intBytes 4 d.daysSinceEpoch
  | time, c => intBytes 8 c.micros
  | timestamp, c => intBytes 8 c.microsSinceEpoch
  | timestamptz, c => intBytes 8 c.microsSinceEpoch
  | json, j => versioned (t == .jsonb) (textBytes j.text)

/-- The value of the bytes of a type. -/
def Form.ofBytes? (t : WireType) : (form : Form) → Bytes → Option form.Carrier
  | bool, bs => readBool bs
  | int2, bs => (readInt 2 bs).map Int16.ofInt
  | int4, bs => (readInt 4 bs).map Int32.ofInt
  | int8, bs => (readInt 8 bs).map Int64.ofInt
  | float4, bs => (readNat 4 bs).map UInt32.ofNat
  | float8, bs => (readNat 8 bs).map fun n => ⟨UInt64.ofNat n⟩
  | text, bs => (unversioned t.isVersionedText bs).bind readText
  | bytea, bs => some bs
  | date, bs => (readInt 4 bs).bind Date.ofDaysSinceEpoch?
  | time, bs => (readInt 8 bs).map TimeOfDay.ofMicros
  | timestamp, bs => (readInt 8 bs).bind Timestamp.ofMicrosSinceEpoch?
  | timestamptz, bs => (readInt 8 bs).bind Instant.ofMicrosSinceEpoch?
  | json, bs => ((unversioned (t == .jsonb) bs).bind readText).bind Json.read?

end SqlTree.Wire
