/-!
Dates of the Gregorian calendar, extended to all years, and times of day. A date is counted in days
since 1970-01-01, an instant in seconds since the start of that day.
-/

namespace CqlClient

structure CalendarDate where
  year : Int
  month : Nat
  day : Nat
  deriving DecidableEq

namespace CalendarDate

/-- The days from 0000-03-01, where years that end in February begin, to 1970-01-01. -/
def epoch : Int := 719468

/-- The days before a month in a year that begins in March. -/
def daysBefore (month : Nat) : Nat := (153 * month + 2) / 5

def daysSinceEpoch (d : CalendarDate) : Int :=
  let year := if d.month ≤ 2 then d.year - 1 else d.year
  let month := (d.month + 9) % 12
  365 * year + year / 4 - year / 100 + year / 400 + daysBefore month + d.day - 1 - epoch

/-- Years repeat after 400 of them, which are 146097 days. -/
def ofDaysSinceEpoch (n : Int) : CalendarDate :=
  let cycle := (n + epoch) / 146097
  let dayOfCycle := ((n + epoch) % 146097).toNat
  let yearOfCycle :=
    (dayOfCycle - dayOfCycle / 1460 + dayOfCycle / 36524 - dayOfCycle / 146096) / 365
  let dayOfYear := dayOfCycle - (365 * yearOfCycle + yearOfCycle / 4 - yearOfCycle / 100)
  let month := (5 * dayOfYear + 2) / 153
  let year := 400 * cycle + yearOfCycle
  let day := dayOfYear - daysBefore month + 1
  if month < 10 then ⟨year, month + 3, day⟩ else ⟨year + 1, month - 9, day⟩

/-- Whether a date is in the years that calendar dates are kept for. -/
def isKept (d : CalendarDate) : Bool := -262143 ≤ d.year && d.year ≤ 262142

end CalendarDate

structure ClockTime where
  hour : Nat
  minute : Nat
  second : Nat
  /-- From a whole second on up to two of them during a leap second. -/
  nanosecond : Nat
  deriving DecidableEq

namespace ClockTime

def nanosecondsSinceMidnight (t : ClockTime) : Nat :=
  ((t.hour * 60 + t.minute) * 60 + t.second) * 10 ^ 9 + t.nanosecond

def ofNanoseconds (n : Nat) : ClockTime :=
  let seconds := n / 10 ^ 9
  ⟨seconds / 3600, seconds / 60 % 60, seconds % 60, n % 10 ^ 9⟩

end ClockTime

structure Instant where
  seconds : Int
  nanosecond : Nat
  deriving DecidableEq

namespace Instant

/-- Whole milliseconds since the epoch, rounded down. -/
def milliseconds (i : Instant) : Int := i.seconds * 1000 + i.nanosecond / 10 ^ 6

def ofMilliseconds (n : Int) : Instant := ⟨n / 1000, (n % 1000).toNat * 10 ^ 6⟩

def date (i : Instant) : CalendarDate := .ofDaysSinceEpoch (i.seconds / 86400)

def time (i : Instant) : ClockTime :=
  .ofNanoseconds ((i.seconds % 86400).toNat * 10 ^ 9 + i.nanosecond)

end Instant

end CqlClient
