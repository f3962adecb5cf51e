import ResourceBuild.Text.Digits

/-!
# Time patterns

A pattern for writing a time is a text in which directives, marked by a percent sign, stand for
parts of the time.
-/

namespace ResourceBuild.Time

/-- What fills a number up to its width. -/
inductive Padding where
  | bare
  | zeros
  | blanks
  deriving DecidableEq

/-- The parts of a time that are numbers. -/
inductive Quantity where
  | year
  | century
  | yearOfCentury
  | weekYear
  | weekYearOfCentury
  | quarter
  | month
  | day
  | weekFromSunday
  | weekFromMonday
  | week
  | daysSinceSunday
  | weekday
  | ordinal
  | hour
  | halfDayHour
  | minute
  | second
  | nanosecond
  | epochSeconds
  deriving DecidableEq

/-- The parts of a time that are words. -/
inductive Word where
  | monthShort
  | month
  | weekdayShort
  | weekday
  | halfDay
  | halfDayLower
  deriving DecidableEq

/-- The ways to write the distance from the common time. -/
inductive OffsetForm where
  | plain
  | colon
  | colonSeconds
  | hours
  /-- A form for reading alone: no time can be written with it. -/
  | loose
  deriving DecidableEq

inductive Item where
  | literal (c : Char)
  | number (quantity : Quantity) (padding : Padding)
  | word (w : Word)
  /-- The first digits behind the second, with a point in front or not. -/
  | fraction (point : Bool) (places : Nat)
  /-- As many groups of three digits behind the second as there is need for. -/
  | neededFraction
  | zone
  | offset (form : OffsetForm)
  /-- The whole time in the common form. -/
  | standard
  deriving DecidableEq

namespace Item

def zeros (q : Quantity) : Item := .number q .zeros

def blanks (q : Quantity) : Item := .number q .blanks

def bare (q : Quantity) : Item := .number q .bare

end Item

open Item

def clockShort : List Item := [zeros .hour, .literal ':', zeros .minute]

def clock : List Item := clockShort ++ [.literal ':', zeros .second]

def slashDate : List Item :=
  [zeros .month, .literal '/', zeros .day, .literal '/', zeros .yearOfCentury]

def dashDate : List Item := [zeros .year, .literal '-', zeros .month, .literal '-', zeros .day]

/-- The directives, without the percent sign. None begins with another one. -/
def directives : List (String × List Item) :=
  [("A", [.word .weekday]), ("a", [.word .weekdayShort]),
    ("B", [.word .month]), ("b", [.word .monthShort]), ("h", [.word .monthShort]),
    ("C", [zeros .century]), ("D", slashDate), ("F", dashDate), ("G", [zeros .weekYear]),
    ("H", [zeros .hour]), ("I", [zeros .halfDayHour]), ("M", [zeros .minute]),
    ("P", [.word .halfDayLower]), ("p", [.word .halfDay]), ("R", clockShort),
    ("S", [zeros .second]), ("T", clock), ("U", [zeros .weekFromSunday]), ("V", [zeros .week]),
    ("W", [zeros .weekFromMonday]), ("X", clock), ("Y", [zeros .year]), ("Z", [.zone]),
    ("c", [.word .weekdayShort, .literal ' ', .word .monthShort, .literal ' ', blanks .day,
      .literal ' '] ++ clock ++ [.literal ' ', zeros .year]),
    ("d", [zeros .day]), ("e", [blanks .day]), ("f", [zeros .nanosecond]),
    ("g", [zeros .weekYearOfCentury]), ("j", [zeros .ordinal]), ("k", [blanks .hour]),
    ("l", [blanks .halfDayHour]), ("m", [zeros .month]), ("n", [.literal '\n']),
    ("q", [bare .quarter]),
    ("r", [zeros .halfDayHour, .literal ':', zeros .minute, .literal ':', zeros .second,
      .literal ' ', .word .halfDay]),
    ("s", [bare .epochSeconds]), ("t", [.literal '\t']), ("u", [bare .weekday]),
    ("v", [blanks .day, .literal '-', .word .monthShort, .literal '-', zeros .year]),
    ("w", [bare .daysSinceSunday]), ("x", slashDate), ("y", [zeros .yearOfCentury]),
    ("z", [.offset .plain]), (":z", [.offset .colon]), ("::z", [.offset .colonSeconds]),
    (":::z", [.offset .hours]), ("#z", [.offset .loose]), ("+", [.standard]),
    (".f", [.neededFraction]), (".3f", [.fraction true 3]), (".6f", [.fraction true 6]),
    (".9f", [.fraction true 9]), ("3f", [.fraction false 3]), ("6f", [.fraction false 6]),
    ("9f", [.fraction false 9]), ("%", [.literal '%'])]

/-- The items of the directive in front of a text, and its length. -/
def directive? (cs : List Char) : Option (List Item × Nat) :=
  (directives.find? fun d => d.1.toList.isPrefixOf cs).map fun d => (d.2, d.1.length)

/-- The padding that a mark in front of a directive asks for. -/
def padding? (c : Char) : Option Padding :=
  if c = '-' then some .bare
  else if c = '0' then some .zeros
  else if c = '_' then some .blanks
  else none

/-- The items of a marked directive and its length; the mark is for single numbers alone. -/
def marked? (cs : List Char) : Option (List Item × Nat) :=
  match cs with
  | [] => none
  | c :: r =>
    match padding? c with
    | none => directive? cs
    | some padding =>
      match directive? r with
      | some ([.number q _], n) => some ([.number q padding], n + 1)
      | _ => none

/-- The items of a pattern, if all its directives are known. -/
def items? : List Char → Option (List Item)
  | [] => some []
  | c :: r =>
    if c = '%' then
      match marked? r with
      | some (its, n) => (items? (r.drop n)).map (its ++ ·)
      | none => none
    else (items? r).map (.literal c :: ·)
termination_by cs => cs.length
decreasing_by all_goals simp [List.length_drop]; try omega

end ResourceBuild.Time
