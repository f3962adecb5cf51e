import ResourceBuild.Text.Blank
import ResourceBuild.Text.Digits

/-!
# Time zones

The zones in which a time can be written: the common one, the machine's own, and fixed distances
from the common one.
-/

namespace ResourceBuild.Time

open Text

inductive Zone where
  | utc
  | machine
  /-- The seconds that local time is ahead. -/
  | fixed (seconds : Int)
  deriving DecidableEq

namespace Zone

/-- The zones with names, in lower case; no name at all is the common zone. -/
def named : List (String × Zone) :=
  [("", .utc), ("utc", .utc), ("z", .utc), ("gmt", .utc), ("local", .machine)]

/-- The seconds of four digits for hours and minutes, if these are a time of day. -/
def clockSeconds? (ds : List Char) : Option Int :=
  match ds with
  | [a, b, c, d] =>
    let hours := digitsValue [a, b]
    let minutes := digitsValue [c, d]
    if ds.all isDigit && decide (minutes < 60) && decide (hours < 24) then
      some (hours * 3600 + minutes * 60)
    else none
  | _ => none

/-- The zone a sign and hours and minutes stand for; colons do not count. -/
def signed? (s : String) : Option Zone :=
  let value (r : List Char) : Option Int := clockSeconds? (r.filter (· != ':'))
  match s.toList with
  | '+' :: r => (value r).map fixed
  | '-' :: r => (value r).map fun z => fixed (-z)
  | _ => none

/-- The zone a text names, in any case and with blanks around it. -/
def parse? (s : String) : Option Zone :=
  let trimmed := trim s
  match named.lookup (String.ofList (trimmed.toList.map Char.toLower)) with
  | some zone => some zone
  | none => signed? trimmed

/-- The seconds that local time is ahead; the machine keeps to the common time. -/
def offset : Zone → Int
  | .utc => 0
  | .machine => 0
  | .fixed seconds => seconds

/-- Hours and minutes with a sign, and a colon between them. -/
def offsetText (seconds : Int) : String :=
  let minutes := seconds.natAbs / 60
  (if seconds < 0 then "-" else "+") ++ padded '0' 2 (minutes / 60) ++ ":" ++
    padded '0' 2 (minutes % 60)

/-- How a zone is called in a written time. -/
def label : Zone → String
  | .utc => "UTC"
  | .machine => offsetText 0
  | .fixed seconds => offsetText seconds

end Zone

end ResourceBuild.Time
