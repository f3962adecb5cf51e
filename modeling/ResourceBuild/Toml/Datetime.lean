import ResourceBuild.Text.Digits

/-!
# Dates and times in TOML

A date, a time of day, or both with or without an offset, read and brought into canonical form: a
`T` between date and time, two digits per part, no zeros at the end of a fraction.
-/

namespace ResourceBuild.Toml

open Text

def twoDigits? (bound : Nat) (cs : List Char) : Option (Nat × List Char) :=
  match cs with
  | a :: b :: r =>
    if isDigit a && isDigit b && decide (digitsValue [a, b] ≤ bound) then
      some (digitsValue [a, b], r)
    else none
  | _ => none

/-- The text behind a given character. -/
def after? (c : Char) (cs : List Char) : Option (List Char) :=
  match cs with
  | d :: r => if d = c then some r else none
  | [] => none

def isLeapYear (y : Nat) : Bool :=
  y % 4 == 0 && (y % 100 != 0 || y % 400 == 0)

def daysOfMonth (y m : Nat) : Nat :=
  match m with
  | 2 => if isLeapYear y then 29 else 28
  | 4 | 6 | 9 | 11 => 30
  | _ => 31

def date? (cs : List Char) : Option (String × List Char) := do
  let ys := cs.takeWhile isDigit
  if ys.length ≠ 4 then none
  let r ← after? '-' (cs.drop 4)
  let (m, r) ← twoDigits? 12 r
  let r ← after? '-' r
  let (d, r) ← twoDigits? 31 r
  let y := digitsValue ys
  if m = 0 ∨ d = 0 ∨ daysOfMonth y m < d then none
  return (padded '0' 4 y ++ "-" ++ padded '0' 2 m ++ "-" ++ padded '0' 2 d, r)

/-- The fraction of a second in canonical form: nine digits at most, without zeros at the end. -/
def fraction (ds : List Char) : String :=
  let kept := ((ds.take 9).reverse.dropWhile (· == '0')).reverse
  if kept.isEmpty then "" else String.ofList ('.' :: kept)

/-- A time of day in canonical form. Without seconds it means the full minute. -/
def time? (cs : List Char) : Option (String × List Char) := do
  let (h, r) ← twoDigits? 23 cs
  let r ← after? ':' r
  let (m, r) ← twoDigits? 59 r
  let minutes := padded '0' 2 h ++ ":" ++ padded '0' 2 m
  match r with
  | ':' :: r =>
    let (s, r) ← twoDigits? 60 r
    let seconds := minutes ++ ":" ++ padded '0' 2 s
    match r with
    | '.' :: r =>
      let (ds, r) := takeDigits r
      if ds.isEmpty then none
      return (seconds ++ fraction ds, r)
    | r => return (seconds, r)
  | r => return (minutes ++ ":00", r)

/-- An offset in canonical form. -/
def offset? (cs : List Char) : Option (String × List Char) :=
  match cs with
  | 'Z' :: r => some ("Z", r)
  | 'z' :: r => some ("Z", r)
  | c :: r =>
    if c = '+' ∨ c = '-' then do
      let (h, r) ← twoDigits? 23 r
      let r ← after? ':' r
      let (m, r) ← twoDigits? 59 r
      let sign := if c = '-' ∧ 0 < h + m then "-" else "+"
      return (sign ++ padded '0' 2 h ++ ":" ++ padded '0' 2 m, r)
    else none
  | [] => none

/-- The canonical form of a date, a time, or a date and time. -/
def datetime? (cs : List Char) : Option String :=
  match date? cs with
  | some (date, []) => some date
  | some (date, c :: r) =>
    if c = 'T' ∨ c = 't' ∨ c = ' ' then
      match time? r with
      | some (time, []) => some (date ++ "T" ++ time)
      | some (time, r) =>
        match offset? r with
        | some (offset, []) => some (date ++ "T" ++ time ++ offset)
        | _ => none
      | none => none
    else none
  | none =>
    match time? cs with
    | some (time, []) => some time
    | _ => none

/-- Whether a text is written like a date, digit by digit. -/
def looksLikeDate (cs : List Char) : Bool :=
  match cs with
  | [a, b, c, d, '-', e, f, '-', g, h] => [a, b, c, d, e, f, g, h].all isDigit
  | _ => false

end ResourceBuild.Toml
