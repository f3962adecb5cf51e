/-!
# The calendar

Days, months and weeks of the Gregorian calendar, which is taken to hold for all years. Days are
counted from the first of January 1970.
-/

namespace ResourceBuild.Time

/-- A point in time. In a leap second the nanoseconds go on beyond a billion. -/
structure Instant where
  /-- Seconds since the epoch. -/
  seconds : Int
  nanoseconds : Nat := 0
  deriving DecidableEq

structure Date where
  year : Int
  month : Nat
  day : Nat
  deriving DecidableEq

def secondsPerDay : Int := 86400

/-- The day a number of seconds falls on. -/
def dayOf (seconds : Int) : Int := seconds / secondsPerDay

def secondOfDay (seconds : Int) : Nat := (seconds % secondsPerDay).toNat

/-- The days from the first of March of the year 0 to the epoch. -/
def marchShift : Int := 719468

/-- The days of 400 years, after which the calendar repeats. -/
def cycleDays : Int := 146097

/--
The date of a day. Years are taken to begin in March, so that a leap day is the last of its year;
the months from March on are as long as every other run of five months.
-/
def dateOf (day : Int) : Date :=
  let shifted := day + marchShift
  let cycle := shifted / cycleDays
  let inCycle := (shifted % cycleDays).toNat
  let yearInCycle := (inCycle - inCycle / 1460 + inCycle / 36524 - inCycle / 146096) / 365
  let inYear := inCycle - (365 * yearInCycle + yearInCycle / 4 - yearInCycle / 100)
  let month := (5 * inYear + 2) / 153
  let year := cycle * 400 + yearInCycle
  { year := if month < 10 then year else year + 1
    month := if month < 10 then month + 3 else month - 9
    day := inYear - (153 * month + 2) / 5 + 1 }

def newYear (year : Int) : Int :=
  let y := year - 1
  365 * y + y / 4 - y / 100 + y / 400 - 719162

def ordinal (day : Int) : Nat :=
  (day - newYear (dateOf day).year).toNat + 1

def sinceSunday (day : Int) : Nat := ((day + 4) % 7).toNat

def sinceMonday (day : Int) : Nat := ((day + 3) % 7).toNat

/-- The Thursday of the week of a day, which begins on Monday. -/
def thursdayOf (day : Int) : Int := day - sinceMonday day + 3

/-- The year to which the week of a day belongs. -/
def weekYear (day : Int) : Int := (dateOf (thursdayOf day)).year

def weekOfYear (day : Int) : Nat := (ordinal (thursdayOf day) - 1) / 7 + 1

/-- The number of weeks begun in the year of a day, with `since` days since the last beginning. -/
def weeksBegun (day : Int) (since : Nat) : Nat := (ordinal day + 6 - since) / 7

end ResourceBuild.Time
