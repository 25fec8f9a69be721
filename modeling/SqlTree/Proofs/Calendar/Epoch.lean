import SqlTree.Calendar.Epoch

/-!
# Calendar — counts and what they count

A date is the date of its count of days.  Times and timestamps are counted in microseconds, so they
come back from their counts exactly if they have no smaller part and no leap second
(`TimeOfDay.IsPrecise`): what is finer is cut off, and a leap second is counted as the second after
it.
-/

namespace SqlTree.Calendar

theorem Date.ofDaysSinceEpoch?_daysSinceEpoch (d : Date) :
    Date.ofDaysSinceEpoch? d.daysSinceEpoch = some d := by
  rw [ofDaysSinceEpoch?, daysSinceEpoch, Int.sub_add_cancel, ofDays?,
    dif_pos ⟨d.first_le, d.le_last⟩]

/-! ### Times of day -/

namespace TimeOfDay

/-- A whole number of microseconds since midnight, and not in a leap second. -/
structure IsPrecise (t : TimeOfDay) : Prop where
  nano_lt : t.nano < 1000000000
  nano_mod : t.nano % 1000 = 0

instance (t : TimeOfDay) : Decidable t.IsPrecise :=
  decidable_of_iff (t.nano < 1000000000 ∧ t.nano % 1000 = 0)
    ⟨fun h => ⟨h.1, h.2⟩, fun h => ⟨h.nano_lt, h.nano_mod⟩⟩

theorem second_ofMicros (n : Int) :
    (ofMicros n).second = (n % microsPerDay).toNat / 1000000 := rfl

theorem nano_ofMicros (n : Int) :
    (ofMicros n).nano = (n % microsPerDay).toNat % 1000000 * 1000 := rfl

theorem isPrecise_ofMicros (n : Int) : (ofMicros n).IsPrecise := by
  constructor <;> rw [nano_ofMicros] <;> omega

theorem eq_of_parts {t u : TimeOfDay} (hsecond : t.second = u.second) (hnano : t.nano = u.nano) :
    t = u := by
  cases t
  cases u
  cases hsecond
  cases hnano
  rfl

/-- Whole days are not told apart. -/
theorem ofMicros_add_days (n days : Int) : ofMicros (days * microsPerDay + n) = ofMicros n := by
  have hmod : (days * microsPerDay + n) % microsPerDay = n % microsPerDay := by
    rw [Int.add_comm, Int.add_mul_emod_self_right]
  apply eq_of_parts
  · rw [second_ofMicros, second_ofMicros, hmod]
  · rw [nano_ofMicros, nano_ofMicros, hmod]

section
variable {t : TimeOfDay}

theorem IsPrecise.micros_lt (h : t.IsPrecise) : 0 ≤ t.micros ∧ t.micros < microsPerDay := by
  have hsecond : t.second < 86400 := t.second_lt
  have hnano := h.nano_lt
  rw [micros, microsPerDay]
  omega

theorem ofMicros_micros (h : t.IsPrecise) : ofMicros t.micros = t := by
  have hmod : t.micros % microsPerDay = t.micros := Int.emod_eq_of_lt h.micros_lt.1 h.micros_lt.2
  have hlt := h.nano_lt
  have hwhole := h.nano_mod
  apply eq_of_parts
  · rw [second_ofMicros, hmod, micros]
    omega
  · rw [nano_ofMicros, hmod, micros]
    omega

/-- A time comes back if it is precise. -/
theorem ofMicros_micros_iff : ofMicros t.micros = t ↔ t.IsPrecise :=
  ⟨fun h => h ▸ isPrecise_ofMicros t.micros, ofMicros_micros⟩

end

end TimeOfDay

/-! ### Timestamps -/

namespace Timestamp
variable {t : Timestamp}

/-- Where nothing is cut off, days and microseconds are counted apart. -/
theorem microsSinceEpoch_eq (h : t.time.IsPrecise) :
    t.microsSinceEpoch = t.date.daysSinceEpoch * microsPerDay + t.time.micros := by
  have hnanos : t.nanosSinceEpoch =
      1000 * (t.date.daysSinceEpoch * microsPerDay + t.time.micros) := by
    have hwhole := h.nano_mod
    rw [nanosSinceEpoch, TimeOfDay.micros, microsPerDay]
    omega
  rw [microsSinceEpoch, hnanos, Int.mul_tdiv_cancel_left _ (by decide)]

theorem ofMicrosSinceEpoch?_microsSinceEpoch (h : t.time.IsPrecise) :
    ofMicrosSinceEpoch? t.microsSinceEpoch = some t := by
  obtain ⟨hlow, hhigh⟩ := h.micros_lt
  have hday : (t.date.daysSinceEpoch * microsPerDay + t.time.micros) / microsPerDay =
      t.date.daysSinceEpoch := by
    rw [microsPerDay] at *
    omega
  rw [ofMicrosSinceEpoch?, microsSinceEpoch_eq h, hday, Date.ofDaysSinceEpoch?_daysSinceEpoch,
    TimeOfDay.ofMicros_add_days, TimeOfDay.ofMicros_micros h]
  rfl

/-- No count stands for anything finer. -/
theorem isPrecise_of_ofMicrosSinceEpoch? {n : Int} (h : ofMicrosSinceEpoch? n = some t) :
    t.time.IsPrecise := by
  obtain ⟨d, -, rfl⟩ := Option.map_eq_some_iff.1 h
  exact TimeOfDay.isPrecise_ofMicros n

end Timestamp

end SqlTree.Calendar
