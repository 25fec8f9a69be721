import SqlTree.Calendar.Clock

/-!
# Calendar — counts from 2000-01-01

Dates as days, timestamps and instants as microseconds since the beginning of the year 2000.
-/

namespace SqlTree.Calendar

/-- The days from 1970-01-01 to 2000-01-01. -/
def epochDay : Int := 10957

def microsPerDay : Int := 86400000000

/-- The days from 2000-01-01 to a date. -/
def Date.daysSinceEpoch (d : Date) : Int := d.days - epochDay

/-- The date so many days after 2000-01-01. -/
def Date.ofDaysSinceEpoch? (n : Int) : Option Date := Date.ofDays? (n + epochDay)

/-- The whole microseconds since midnight, a leap second being counted on. -/
def TimeOfDay.micros (t : TimeOfDay) : Int := t.second * 1000000 + (t.nano / 1000 : Nat)

/-- The time of day so many microseconds after a midnight. -/
def TimeOfDay.ofMicros (n : Int) : TimeOfDay :=
  let m := (n % microsPerDay).toNat
  have h : m < 86400000000 := by
    have h₁ := Int.emod_lt_of_pos n (show (0 : Int) < microsPerDay by decide)
    have h₂ := Int.emod_nonneg n (show microsPerDay ≠ 0 by decide)
    simp only [m, microsPerDay] at *
    omega
  { second := m / 1000000
    nano := m % 1000000 * 1000
    second_lt := by simp only [secondsPerDay]; omega
    nano_lt := by omega }

/-- The nanoseconds from the beginning of 2000 to a timestamp. -/
def Timestamp.nanosSinceEpoch (t : Timestamp) : Int :=
  (t.date.daysSinceEpoch * 86400 + t.time.second) * 1000000000 + t.time.nano

/-- The microseconds from the beginning of 2000 to a timestamp; a fraction of one is cut off. -/
def Timestamp.microsSinceEpoch (t : Timestamp) : Int := t.nanosSinceEpoch.tdiv 1000

/-- The timestamp so many microseconds after the beginning of 2000. -/
def Timestamp.ofMicrosSinceEpoch? (n : Int) : Option Timestamp :=
  (Date.ofDaysSinceEpoch? (n / microsPerDay)).map fun d => ⟨d, TimeOfDay.ofMicros n⟩

/-- The microseconds from the beginning of 2000 in universal time to an instant. -/
def Instant.microsSinceEpoch (c : Instant) : Int := c.utc.microsSinceEpoch

/-- The instant so many microseconds after the beginning of 2000 in universal time. -/
def Instant.ofMicrosSinceEpoch? (n : Int) : Option Instant :=
  (Timestamp.ofMicrosSinceEpoch? n).map Timestamp.atUtc

end SqlTree.Calendar
