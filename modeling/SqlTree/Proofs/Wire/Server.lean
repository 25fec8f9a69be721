import SqlTree.Proofs.Text.Bytes
import SqlTree.Proofs.Wire.Client
import SqlTree.Proofs.Wire.Numbers
import SqlTree.Wire.Session

/-!
# Wire — the client of a server

The client that speaks the binary format obeys both laws for clients.  It sends parameters if their
number is right and each has a cell (`writeAll_eq_ok_iff`).  The bytes of a value are read as the
value again, but for what a count of microseconds does not keep of a time and JSON text of a JSON
value (`Form.ofBytes?_bytes_iff`).
-/

namespace SqlTree.Wire
open Calendar (Date TimeOfDay Timestamp Instant)
open Number (fitsSigned)

/-! ### Sending -/

theorem writeFrom_eq_ok_iff {index : Nat} {pairs : List (WireType × Parameter)} {cells : Cells} :
    writeFrom index pairs = .ok cells ↔
      List.Forall₂ (fun p cell => writeCell p.1 p.2 = some cell) pairs cells := by
  induction pairs generalizing index cells with
  | nil =>
    rw [writeFrom, List.forall₂_nil_left_iff]
    exact ⟨fun h => (Except.ok.inj h).symm, fun h => congrArg Except.ok h.symm⟩
  | cons p pairs ih =>
    rw [writeFrom, List.forall₂_cons_left_iff]
    cases hcell : writeCell p.1 p.2 with
    | none => exact iff_of_false nofun fun ⟨_, _, h, _⟩ => nomatch h
    | some cell =>
      cases hcells : writeFrom (index + 1) pairs with
      | error cause =>
        refine iff_of_false nofun fun ⟨_, cells', _, h, _⟩ => ?_
        cases hcells.symm.trans (ih.2 h)
      | ok rest =>
        constructor
        · intro h
          exact ⟨cell, rest, rfl, ih.1 hcells, (Except.ok.inj h).symm⟩
        · rintro ⟨_, rest', hcell', hrest, rfl⟩
          cases hcell'
          cases hcells.symm.trans (ih.2 hrest)
          rfl

theorem writeAll_eq_ok_iff {types : List WireType} {ps : List Parameter} {cells : Cells} :
    writeAll types ps = .ok cells ↔ ps.length = types.length ∧
      List.Forall₂ (fun p cell => writeCell p.1 p.2 = some cell) (types.zip ps) cells := by
  rw [writeAll]
  split
  next h => rw [and_iff_right h, writeFrom_eq_ok_iff]
  next h => exact iff_of_false nofun fun h' => h h'.1

theorem Server.checksParameters_client (server : Server) : server.client.ChecksParameters where
  count h := (writeAll_eq_ok_iff.1 h).1
  order h := (writeAll_eq_ok_iff.1 h).2

/-! ### Bytes of a value -/

theorem fitsSigned_int16 (i : Int16) : fitsSigned 16 i.toInt = true :=
  fitsSigned_iff.2 ⟨i.le_toInt, i.toInt_lt⟩

theorem fitsSigned_int32 (i : Int32) : fitsSigned 32 i.toInt = true :=
  fitsSigned_iff.2 ⟨i.le_toInt, i.toInt_lt⟩

theorem fitsSigned_int64 (i : Int64) : fitsSigned 64 i.toInt = true :=
  fitsSigned_iff.2 ⟨i.le_toInt, i.toInt_lt⟩

theorem fitsSigned_daysSinceEpoch (d : Date) : fitsSigned 32 d.daysSinceEpoch = true := by
  have hlow := d.first_le
  have hhigh := d.le_last
  rw [Calendar.firstDay_eq] at hlow
  rw [Calendar.lastDay_eq] at hhigh
  rw [fitsSigned_iff, Date.daysSinceEpoch, Calendar.epochDay]
  omega

theorem fitsSigned_micros (c : TimeOfDay) : fitsSigned 64 c.micros = true := by
  have hsecond : c.second < 86400 := c.second_lt
  have hnano := c.nano_lt
  rw [fitsSigned_iff, TimeOfDay.micros]
  omega

theorem fitsSigned_microsSinceEpoch {c : Timestamp} (h : c.time.IsPrecise) :
    fitsSigned 64 c.microsSinceEpoch = true := by
  have hlow := c.date.first_le
  have hhigh := c.date.le_last
  obtain ⟨hmicros, hday⟩ := h.micros_lt
  rw [Calendar.firstDay_eq] at hlow
  rw [Calendar.lastDay_eq] at hhigh
  rw [Calendar.microsPerDay] at hday
  rw [fitsSigned_iff, Timestamp.microsSinceEpoch_eq h, Date.daysSinceEpoch, Calendar.epochDay,
    Calendar.microsPerDay]
  omega

/-- A timestamp is read back from its count if it is precise. -/
theorem readTimestamp_iff (c : Timestamp) :
    (readInt 8 (intBytes 8 c.microsSinceEpoch)).bind Timestamp.ofMicrosSinceEpoch? = some c ↔
      c.time.IsPrecise := by
  constructor
  · intro h
    obtain ⟨n, -, hn⟩ := Option.bind_eq_some_iff.1 h
    exact Timestamp.isPrecise_of_ofMicrosSinceEpoch? hn
  · intro h
    rw [readInt_intBytes 8 (by decide) (fitsSigned_microsSinceEpoch h), Option.bind_some]
    exact Timestamp.ofMicrosSinceEpoch?_microsSinceEpoch h

/-- An instant is read back as its timestamp is. -/
theorem readInstant_iff (c : Instant) :
    (readInt 8 (intBytes 8 c.microsSinceEpoch)).bind Instant.ofMicrosSinceEpoch? = some c ↔
      c.utc.time.IsPrecise := by
  have hbind : (readInt 8 (intBytes 8 c.microsSinceEpoch)).bind Instant.ofMicrosSinceEpoch? =
      ((readInt 8 (intBytes 8 c.utc.microsSinceEpoch)).bind
        Timestamp.ofMicrosSinceEpoch?).map Timestamp.atUtc := by
    rw [Option.map_bind]
    rfl
  have hatUtc : Function.Injective Timestamp.atUtc := fun _ _ h => congrArg Instant.utc h
  rw [hbind, ← readTimestamp_iff, ← (Option.map_injective hatUtc).eq_iff]
  rfl

theorem readTime_iff (c : TimeOfDay) :
    (readInt 8 (intBytes 8 c.micros)).map TimeOfDay.ofMicros = some c ↔ c.IsPrecise := by
  rw [readInt_intBytes 8 (by decide) (fitsSigned_micros c), Option.map_some, Option.some.injEq]
  exact TimeOfDay.ofMicros_micros_iff

theorem unversioned_versioned (hasVersion : Bool) (bs : Bytes) :
    unversioned hasVersion (versioned hasVersion bs) = some bs := by
  cases hasVersion <;> rfl

/-- The JSON values that their text keeps. -/
def IsPrinted (j : Json) : Prop := Json.read? j.text = some j

/-- The bytes of a value are read as the value, unless something of it is not in them. -/
theorem Form.ofBytes?_bytes_iff {form : Form} {a : form.Carrier} (t : WireType) :
    form.ofBytes? t (form.bytes t a) = some a ↔ form.Keeps IsPrinted a := by
  cases form with
  | bool => cases a <;> exact iff_of_true rfl trivial
  | int2 =>
    refine iff_of_true ?_ trivial
    rw [bytes, ofBytes?, readInt_intBytes 2 (by decide) (fitsSigned_int16 a), Option.map_some,
      Int16.ofInt_toInt]
  | int4 =>
    refine iff_of_true ?_ trivial
    rw [bytes, ofBytes?, readInt_intBytes 4 (by decide) (fitsSigned_int32 a), Option.map_some,
      Int32.ofInt_toInt]
  | int8 =>
    refine iff_of_true ?_ trivial
    rw [bytes, ofBytes?, readInt_intBytes 8 (by decide) (fitsSigned_int64 a), Option.map_some,
      Int64.ofInt_toInt]
  | float4 =>
    refine iff_of_true ?_ trivial
    rw [bytes, ofBytes?, readNat_natBytes 4 a.toNat_lt, Option.map_some, UInt32.ofNat_toNat]
  | float8 =>
    refine iff_of_true ?_ trivial
    rw [bytes, ofBytes?, readNat_natBytes 8 a.bits.toNat_lt, Option.map_some, UInt64.ofNat_toNat]
  | text =>
    refine iff_of_true ?_ trivial
    rw [bytes, ofBytes?, unversioned_versioned, Option.bind_some, readText_textBytes]
  | bytea => exact iff_of_true rfl trivial
  | date =>
    refine iff_of_true ?_ trivial
    rw [bytes, ofBytes?, readInt_intBytes 4 (by decide) (fitsSigned_daysSinceEpoch a),
      Option.bind_some, Date.ofDaysSinceEpoch?_daysSinceEpoch]
  | time => exact readTime_iff a
  | timestamp => exact readTimestamp_iff a
  | timestamptz => exact readInstant_iff a
  | json =>
    rw [bytes, ofBytes?, unversioned_versioned, Option.bind_some, readText_textBytes,
      Option.bind_some]
    rfl

/-! ### Reading back -/

theorem Server.read_client (server : Server) {form : Form} {t : WireType} {cell : Cell}
    {a? : Option form.Carrier} (h : readCell form t cell = some a?) (index : Nat) :
    server.client.read index form t cell = .ok a? := by
  rw [Server.client]
  simp only [h]

theorem Form.Native.fits {form : Form} {t : WireType} (h : form.Native t) :
    form.fits t = true := by
  cases h <;> rfl

theorem Server.faithful_client (server : Server) : server.client.Faithful IsPrinted where
  accepts h := h.fits
  bind hlength h := writeAll_eq_ok_iff.2 ⟨hlength, h⟩
  null h := ⟨none, if_pos h.fits, server.read_client (if_pos h.fits)⟩
  value {form t a} h hkeeps := by
    have hread : readCell form t (some (form.bytes t a)) = some (some a) := by
      rw [readCell, if_pos h.fits]
      exact congrArg (Option.map some) ((Form.ofBytes?_bytes_iff t).2 hkeeps)
    exact ⟨some (form.bytes t a), if_pos h.fits, server.read_client hread⟩

end SqlTree.Wire
