/-!
# Calendar — dates

A date is the count of days from 1970-01-01 in the proleptic Gregorian calendar, within the years
`firstYear` to `lastYear`.  `dayNumber` counts the days up to a civil date, and `civil` gives the
year, month and day of a count.

Both count by cycles of 400 years, all of 146097 days, and by years that begin in March, so that the
leap day is the last day of a year.
-/

namespace SqlTree.Calendar

/-- A year, a month from 1 and a day of the month from 1. -/
structure Civil where
  year : Int
  month : Nat
  day : Nat
deriving DecidableEq

/-- The count of days before the first of a month, in a year that begins with March as month 0. -/
def daysBeforeMonth (m : Nat) : Nat := (153 * m + 2) / 5

/-- The days from 1970-01-01 to a civil date. -/
def dayNumber (c : Civil) : Int :=
  let y := if c.month ≤ 2 then c.year - 1 else c.year
  let m := (c.month + 9) % 12
  let cycle := y.fdiv 400
  let yearOfCycle := (y - cycle * 400).toNat
  let dayOfYear := daysBeforeMonth m + (c.day - 1)
  let dayOfCycle := yearOfCycle * 365 + yearOfCycle / 4 - yearOfCycle / 100 + dayOfYear
  cycle * 146097 + dayOfCycle - 719468

/-- The civil date of a count of days from 1970-01-01. -/
def civil (n : Int) : Civil :=
  let z := n + 719468
  let cycle := z.fdiv 146097
  let dayOfCycle := (z - cycle * 146097).toNat
  let yearOfCycle :=
    (dayOfCycle - dayOfCycle / 1460 + dayOfCycle / 36524 - dayOfCycle / 146096) / 365
  let dayOfYear := dayOfCycle - (365 * yearOfCycle + yearOfCycle / 4 - yearOfCycle / 100)
  let m := (5 * dayOfYear + 2) / 153
  let day := dayOfYear - daysBeforeMonth m + 1
  let month := if m < 10 then m + 3 else m - 9
  let y := cycle * 400 + yearOfCycle
  ⟨if month ≤ 2 then y + 1 else y, month, day⟩

def firstYear : Int := -262143

def lastYear : Int := 262142

/-- The count of days of the first of January of `firstYear`. -/
def firstDay : Int := dayNumber ⟨firstYear, 1, 1⟩

/-- The count of days of the last of December of `lastYear`. -/
def lastDay : Int := dayNumber ⟨lastYear, 12, 31⟩

theorem firstDay_eq : firstDay = -96465292 := by decide

theorem lastDay_eq : lastDay = 95026236 := by decide

/-- A date, as the count of days from 1970-01-01. -/
structure Date where
  days : Int
  first_le : firstDay ≤ days := by omega
  le_last : days ≤ lastDay := by omega
deriving DecidableEq

namespace Date

/-- The date of a count of days, if it is within the calendar. -/
def ofDays? (n : Int) : Option Date :=
  if h : firstDay ≤ n ∧ n ≤ lastDay then some ⟨n, h.1, h.2⟩ else none

/-- The date of a year, a month and a day, if there is one. -/
def ofCivil? (c : Civil) : Option Date :=
  let n := dayNumber c
  if civil n = c then ofDays? n else none

def civil (d : Date) : Civil := Calendar.civil d.days

end Date

/-- At least `width` digits of a number, with zeros in front. -/
def padded (width n : Nat) : String :=
  let digits := toString n
  String.ofList (List.replicate (width - digits.length) '0') ++ digits

/-- A year in four digits, with a sign unless it is one of the years 0 to 9999. -/
def yearText (y : Int) : String :=
  if 0 ≤ y ∧ y ≤ 9999 then padded 4 y.toNat
  else (if y < 0 then "-" else "+") ++ padded 4 y.natAbs

/-- The date as year, month and day with hyphens between them. -/
def Date.text (d : Date) : String :=
  let c := d.civil
  yearText c.year ++ "-" ++ padded 2 c.month ++ "-" ++ padded 2 c.day

end SqlTree.Calendar
