/-
  ChaosController.Instant

  Points in time in UTC, as a civil date and a time of day with nanoseconds.

  A time of day may carry the second 60, at the end of any minute: it stands for a
  leap second, which follows second 59 and has nanoseconds of its own. Differences
  count such a second only where one of the two instants lies in it
  (`Instant.since`); the calendar itself has none.
-/

import ChaosController.Duration

namespace ChaosController

/-! ## Civil dates -/

/-- The leap years of the proleptic Gregorian calendar. -/
def isLeapYear (year : Int) : Bool :=
  year % 4 == 0 && (year % 100 != 0 || year % 400 == 0)

/-- The number of days of a month. -/
def daysInMonth (year : Int) (month : Nat) : Nat :=
  match month with
  | 2 => if isLeapYear year then 29 else 28
  | 4 | 6 | 9 | 11 => 30
  | _ => 31

/-- The first and the last year of the calendar. -/
def firstYear : Int := -262143
def lastYear : Int := 262142

/-- The dates of the calendar. -/
def IsDate (year : Int) (month day : Nat) : Prop :=
  firstYear ≤ year ∧ year ≤ lastYear ∧ 1 ≤ month ∧ month ≤ 12 ∧ 1 ≤ day ∧
    day ≤ daysInMonth year month

instance (year : Int) (month day : Nat) : Decidable (IsDate year month day) :=
  inferInstanceAs (Decidable (_ ∧ _ ∧ _ ∧ _ ∧ _ ∧ _))

/-- A day of the proleptic Gregorian calendar. -/
structure Date where
  year : Int
  month : Nat
  day : Nat
  valid : IsDate year month day := by decide
deriving DecidableEq, Repr

namespace Date

/-- The date with the given year, month and day, if there is one. -/
def ofCivil? (year : Int) (month day : Nat) : Option Date :=
  if h : IsDate year month day then some ⟨year, month, day, h⟩ else none

/-- The number of days since 1 January 1970. Counted from 1 March, the months before a
    given one have `(153 * m + 2) / 5` days. -/
def dayNumber (d : Date) : Int :=
  let year := if d.month ≤ 2 then d.year - 1 else d.year
  let month : Int := (d.month + 9) % 12
  365 * year + year / 4 - year / 100 + year / 400 + (153 * month + 2) / 5 + d.day - 719469

/-- The following day, except after the last one of the calendar. -/
def next? (d : Date) : Option Date :=
  if d.day < daysInMonth d.year d.month then ofCivil? d.year d.month (d.day + 1)
  else if d.month < 12 then ofCivil? d.year (d.month + 1) 1
  else ofCivil? (d.year + 1) 1 1

/-- The preceding day, except before the first one of the calendar. -/
def previous? (d : Date) : Option Date :=
  if 1 < d.day then ofCivil? d.year d.month (d.day - 1)
  else if 1 < d.month then
    ofCivil? d.year (d.month - 1) (daysInMonth d.year (d.month - 1))
  else ofCivil? (d.year - 1) 12 31

/-- The date of a day number. Days are counted in eras of 400 years that begin on
    1 March; in an era, the year is found by taking the leap days off. -/
def ofDayNumber? (n : Int) : Option Date :=
  -- 719468 days lie between 1 March of the year 0 and 1 January 1970.
  let shifted := n + 719468
  let era := shifted / 146097
  let inEra := (shifted % 146097).toNat
  -- Leap days that have passed: one in four years, but not in a century, but in an era.
  let yearOfEra := (inEra - inEra / 1460 + inEra / 36524 - inEra / 146096) / 365
  let inYear := inEra - (365 * yearOfEra + yearOfEra / 4 - yearOfEra / 100)
  -- January and February belong to the year before.
  let shiftedMonth := (5 * inYear + 2) / 153
  let day := inYear - (153 * shiftedMonth + 2) / 5 + 1
  let month := if shiftedMonth < 10 then shiftedMonth + 3 else shiftedMonth - 9
  let year := (yearOfEra : Int) + era * 400 + if month ≤ 2 then 1 else 0
  ofCivil? year month day

end Date

/-! ## Times of day -/

/-- A time of day; second 60 is a leap second. -/
structure TimeOfDay where
  hour : Nat
  minute : Nat
  second : Nat
  nano : Nat
  hour_lt : hour < 24 := by decide
  minute_lt : minute < 60 := by decide
  second_le : second ≤ 60 := by decide
  nano_lt : nano < 1000000000 := by decide
deriving DecidableEq, Repr

namespace TimeOfDay

/-- The time of day with the given parts, if they are in range. -/
def ofParts? (hour minute second nano : Nat) : Option TimeOfDay :=
  if h : hour < 24 ∧ minute < 60 ∧ second ≤ 60 ∧ nano < 1000000000 then
    some ⟨hour, minute, second, nano, h.1, h.2.1, h.2.2.1, h.2.2.2⟩
  else none

/-- Whether the time lies in a leap second. -/
def isLeap (t : TimeOfDay) : Bool := t.second == 60

/-- The whole seconds since midnight; a leap second counts as the second before it. -/
def wholeSeconds (t : TimeOfDay) : Nat := t.hour * 3600 + t.minute * 60 + min t.second 59

/-- The nanoseconds past the whole second, more than a second of them in a leap second. -/
def subNanos (t : TimeOfDay) : Nat := t.nano + if t.isLeap then nanosPerSecond else 0

end TimeOfDay

/-! ## Instants -/

/-- A point in time in UTC. -/
structure Instant where
  date : Date
  time : TimeOfDay
deriving DecidableEq, Repr

namespace Instant

/-- The nanoseconds since 1 January 1970, with a leap second counted as a repetition of
    the second that follows it. -/
def unixNanos (i : Instant) : Int :=
  (i.date.dayNumber * 86400 + i.time.wholeSeconds) * nanosPerSecond + i.time.subNanos

/-- The seconds by which leap seconds lengthen the way from `earlier` to `later` when the
    two times of day are compared: one if the smaller of them lies in a leap second. -/
def leapSeconds (later earlier : TimeOfDay) : Int :=
  if earlier.wholeSeconds < later.wholeSeconds then (if earlier.isLeap then 1 else 0)
  else if later.wholeSeconds < earlier.wholeSeconds then (if later.isLeap then -1 else 0)
  else 0

/-- The nanoseconds from `earlier` to `later`, negative if they come in the other order. -/
def since (later earlier : Instant) : Int :=
  later.unixNanos - earlier.unixNanos + leapSeconds later.time earlier.time * nanosPerSecond

/-- The time that has passed from `earlier` to `now`, none if `earlier` lies ahead. -/
def elapsed (now earlier : Instant) : Duration :=
  Duration.ofNanosCapped (now.since earlier).toNat

/-- The instant of a number of nanoseconds since 1 January 1970. -/
def ofUnixNanos? (n : Int) : Option Instant := do
  let seconds := n / nanosPerSecond
  let inDay := (seconds % 86400).toNat
  let date ← Date.ofDayNumber? (seconds / 86400)
  let time ← TimeOfDay.ofParts? (inDay / 3600) (inDay / 60 % 60) (inDay % 60)
    (n % nanosPerSecond).toNat
  return ⟨date, time⟩

/-- Without leap seconds a difference is a difference of nanosecond counts. -/
theorem since_of_not_leap {later earlier : Instant} (hl : later.time.isLeap = false)
    (he : earlier.time.isLeap = false) :
    later.since earlier = later.unixNanos - earlier.unixNanos := by
  simp [since, leapSeconds, hl, he]

end Instant

end ChaosController
