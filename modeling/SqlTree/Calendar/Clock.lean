import SqlTree.Calendar.Date

/-!
# Calendar — times of day and timestamps

A time of day is a second of the day and the nanoseconds since its beginning.  A leap second has no
second of its own: it is the second before it with a billion nanoseconds or more.  A timestamp is
only what a calendar and a clock show; an instant is a timestamp in universal time.
-/

namespace SqlTree.Calendar

def secondsPerDay : Nat := 86400

/-- A second of the day and the nanoseconds since, up to the end of a leap second. -/
structure TimeOfDay where
  second : Nat
  nano : Nat
  second_lt : second < secondsPerDay := by decide
  nano_lt : nano < 2000000000 := by decide
deriving DecidableEq

namespace TimeOfDay

/-- The time of a second and its nanoseconds, if there is one.  Any second may be followed by a leap
second. -/
def ofParts? (second nano : Nat) : Option TimeOfDay :=
  if h : second < secondsPerDay ∧ nano < 2000000000 then some ⟨second, nano, h.1, h.2⟩ else none

/-- The time of an hour, a minute, a second and nanoseconds.  A leap second ends a minute. -/
def ofClock? (hour minute second nano : Nat) : Option TimeOfDay :=
  if hour < 24 ∧ minute < 60 ∧ second < 60 ∧ (nano < 1000000000 ∨ second = 59) then
    ofParts? (hour * 3600 + minute * 60 + second) nano
  else none

def hour (t : TimeOfDay) : Nat := t.second / 3600

def minute (t : TimeOfDay) : Nat := t.second / 60 % 60

/-- The fraction of a second in the fewest of three, six or nine digits, nothing if it is zero. -/
def fractionText (nano : Nat) : String :=
  if nano = 0 then ""
  else if nano % 1000000 = 0 then "." ++ padded 3 (nano / 1000000)
  else if nano % 1000 = 0 then "." ++ padded 6 (nano / 1000)
  else "." ++ padded 9 nano

/-- The time as hour, minute and second with colons, a leap second being counted on. -/
def text (t : TimeOfDay) : String :=
  padded 2 t.hour ++ ":" ++ padded 2 t.minute ++ ":" ++
    padded 2 (t.second % 60 + t.nano / 1000000000) ++ fractionText (t.nano % 1000000000)

end TimeOfDay

/-- A date and a time of day. -/
structure Timestamp where
  date : Date
  time : TimeOfDay
deriving DecidableEq

/-- The date and the time with a blank between them. -/
def Timestamp.text (t : Timestamp) : String := t.date.text ++ " " ++ t.time.text

/-- A moment, as the timestamp of it in universal time. -/
structure Instant where
  utc : Timestamp
deriving DecidableEq

/-- The moment at which a timestamp is shown in universal time. -/
def Timestamp.atUtc (t : Timestamp) : Instant := ⟨t⟩

@[simp] theorem Timestamp.utc_atUtc (t : Timestamp) : t.atUtc.utc = t := rfl

end SqlTree.Calendar
