import ResourceBuild.Text.Pieces
import ResourceBuild.Time.Calendar
import ResourceBuild.Time.Offset
import ResourceBuild.Time.Pattern

/-!
# Writing times

A time in a zone is written item by item. The one item that cannot be written makes the whole
pattern fail.
-/

namespace ResourceBuild.Time

open Text

/-- The words of a language for the parts of a time. -/
structure Vocabulary where
  /-- The weekdays from Sunday. -/
  weekdays : List String
  weekdaysShort : List String
  months : List String
  monthsShort : List String
  morning : String
  afternoon : String

def english : Vocabulary where
  weekdays := ["Sunday", "Monday", "Tuesday", "Wednesday", "Thursday", "Friday", "Saturday"]
  weekdaysShort := ["Sun", "Mon", "Tue", "Wed", "Thu", "Fri", "Sat"]
  months := ["January", "February", "March", "April", "May", "June", "July", "August",
    "September", "October", "November", "December"]
  monthsShort := ["Jan", "Feb", "Mar", "Apr", "May", "Jun", "Jul", "Aug", "Sep", "Oct", "Nov",
    "Dec"]
  morning := "AM"
  afternoon := "PM"

/-- A time as it shows in a zone. -/
structure Moment where
  instant : Instant
  zone : Zone := .utc

namespace Moment

/-- The seconds that the clocks of the zone show. -/
def localSeconds (t : Moment) : Int := t.instant.seconds + t.zone.offset

def day (t : Moment) : Int := dayOf t.localSeconds

def date (t : Moment) : Date := dateOf t.day

def ordinal (t : Moment) : Nat := Time.ordinal t.day

def weekYear (t : Moment) : Int := Time.weekYear t.day

def hour (t : Moment) : Nat := secondOfDay t.localSeconds / 3600

def minute (t : Moment) : Nat := secondOfDay t.localSeconds / 60 % 60

/-- The second of the minute; a leap second is the one after 59. -/
def second (t : Moment) : Nat :=
  secondOfDay t.localSeconds % 60 + t.instant.nanoseconds / 1000000000

/-- The nanoseconds behind the second. -/
def fraction (t : Moment) : Nat := t.instant.nanoseconds % 1000000000

/-- The hour of the half day, from 1 to 12. -/
def halfDayHour (t : Moment) : Nat := if t.hour % 12 = 0 then 12 else t.hour % 12

end Moment

/-- A number filled up to a width; `plus` puts a sign in front of a positive number, too. -/
def fillNumber (padding : Padding) (width : Nat) (plus : Bool) (z : Int) : String :=
  let sign := if z < 0 then "-" else if plus then "+" else ""
  let bare := decimal z.natAbs
  match padding with
  | .bare => sign ++ bare
  | .zeros => sign ++ padded '0' (width - sign.length) z.natAbs
  | .blanks =>
    String.ofList (List.replicate (width - sign.length - bare.length) ' ') ++ sign ++ bare

/-- A year has four digits, and behind a sign five characters. -/
def yearText (padding : Padding) (year : Int) : String :=
  let plain := decide (0 ≤ year ∧ year < 10000)
  fillNumber padding (if plain then 4 else 5) (!plain) year

def twoDigits (padding : Padding) (n : Nat) : String := fillNumber padding 2 false n

def Quantity.text (t : Moment) (padding : Padding) : Quantity → String
  | .year => yearText padding t.date.year
  | .century => twoDigits padding (t.date.year / 100).toNat
  | .yearOfCentury => twoDigits padding (t.date.year % 100).toNat
  | .weekYear => yearText padding t.weekYear
  | .weekYearOfCentury => twoDigits padding (t.weekYear % 100).toNat
  | .quarter => decimal ((t.date.month - 1) / 3 + 1)
  | .month => twoDigits padding t.date.month
  | .day => twoDigits padding t.date.day
  | .weekFromSunday => twoDigits padding (weeksBegun t.day (sinceSunday t.day))
  | .weekFromMonday => twoDigits padding (weeksBegun t.day (sinceMonday t.day))
  | .week => twoDigits padding (weekOfYear t.day)
  | .daysSinceSunday => decimal (sinceSunday t.day)
  | .weekday => decimal (sinceMonday t.day + 1)
  | .ordinal => fillNumber padding 3 false t.ordinal
  | .hour => twoDigits padding t.hour
  | .halfDayHour => twoDigits padding t.halfDayHour
  | .minute => twoDigits padding t.minute
  | .second => twoDigits padding t.second
  | .nanosecond => fillNumber padding 9 false t.fraction
  | .epochSeconds => fillNumber padding 9 false t.instant.seconds

def Word.text (v : Vocabulary) (t : Moment) : Word → String
  | .weekday => v.weekdays.getD (sinceSunday t.day) ""
  | .weekdayShort => v.weekdaysShort.getD (sinceSunday t.day) ""
  | .month => v.months.getD (t.date.month - 1) ""
  | .monthShort => v.monthsShort.getD (t.date.month - 1) ""
  | .halfDay => if t.hour < 12 then v.morning else v.afternoon
  | .halfDayLower =>
    String.ofList ((if t.hour < 12 then v.morning else v.afternoon).toList.map Char.toLower)

/-- The first digits behind the second. -/
def fractionText (point : Bool) (places : Nat) (t : Moment) : String :=
  (if point then "." else "") ++ padded '0' places (t.fraction / Nat.pow 10 (9 - places))

/-- The digits behind the second in groups of three, as many as there is need for. -/
def neededFractionText (t : Moment) : String :=
  if t.fraction = 0 then ""
  else if t.fraction % 1000000 = 0 then fractionText true 3 t
  else if t.fraction % 1000 = 0 then fractionText true 6 t
  else fractionText true 9 t

/-- The distance from the common time. -/
def OffsetForm.text? (seconds : Int) : OffsetForm → Option String
  | .plain => some (String.ofList ((Zone.offsetText seconds).toList.filter (· != ':')))
  | .colon => some (Zone.offsetText seconds)
  | .colonSeconds => some (Zone.offsetText seconds ++ ":" ++ padded '0' 2 (seconds.natAbs % 60))
  | .hours => some (String.ofList ((Zone.offsetText seconds).toList.take 3))
  | .loose => none

/-- Date and time with a `T` between them, up to the second. -/
def standardSeconds (t : Moment) : String :=
  let two := twoDigits .zeros
  yearText .zeros t.date.year ++ "-" ++ two t.date.month ++ "-" ++ two t.date.day ++ "T" ++
    two t.hour ++ ":" ++ two t.minute ++ ":" ++ two t.second

/-- The common form of a time, with its distance from the common time. -/
def standardText (t : Moment) : String :=
  standardSeconds t ++ neededFractionText t ++ Zone.offsetText t.zone.offset

/-- The common form with milliseconds, for a time in the common zone. -/
def isoMillis (t : Moment) : String :=
  standardSeconds t ++ fractionText true 3 t ++ "Z"

/-- An item of a pattern, written. -/
def Item.text? (v : Vocabulary) (t : Moment) : Item → Option String
  | .literal c => some (String.singleton c)
  | .number q padding => some (q.text t padding)
  | .word w => some (w.text v t)
  | .fraction point places => some (fractionText point places t)
  | .neededFraction => some (neededFractionText t)
  | .zone => some t.zone.label
  | .offset form => form.text? t.zone.offset
  | .standard => some (standardText t)

/-- Some items, written, if all of them can be. -/
def write? (v : Vocabulary) (t : Moment) (items : List Item) : Option String :=
  (items.mapM (Item.text? v t)).map String.join

end ResourceBuild.Time
