import ResourceBuild.Toml.Basic
import ResourceBuild.Toml.Datetime

/-!
# TOML scalars

Truth values, numbers, dates and times: the values that are written without quotes or brackets.
-/

namespace ResourceBuild.Toml

open Decimal (Double)
open Text

/-- Digits with single underscores between them; the underscores are left out. -/
def digitRun? (isOne : Char → Bool) (cs : List Char) : Option (List Char) :=
  let runs := cs.splitOn '_'
  if runs.all fun r => !r.isEmpty && r.all isOne then some runs.flatten else none

/-- Decimal digits of a whole number: no zero in front of other digits. -/
def wholeRun? (cs : List Char) : Option (List Char) :=
  match digitRun? isDigit cs with
  | some ('0' :: _ :: _) => none
  | run => run

/-- The sign in front of a number, if there is one: whether it is a minus sign. -/
def splitSign (cs : List Char) : Bool × List Char :=
  match cs with
  | '+' :: r => (false, r)
  | '-' :: r => (true, r)
  | r => (false, r)

/-- A whole number in a base given by its letter. -/
def basedInteger? (cs : List Char) : Option Int :=
  match cs with
  | '0' :: 'x' :: r =>
    (digitRun? (fun c => (hexValue? c).isSome) r).map fun ds =>
      ((ds.foldl (fun n c => n * 16 + (hexValue? c).getD 0) 0 : Nat) : Int)
  | '0' :: 'o' :: r =>
    (digitRun? (fun c => '0' ≤ c && c ≤ '7') r).map fun ds => (Nat.ofDigitChars 8 ds 0 : Int)
  | '0' :: 'b' :: r =>
    (digitRun? (fun c => c == '0' || c == '1') r).map fun ds => (Nat.ofDigitChars 2 ds 0 : Int)
  | _ => none

def integer? (cs : List Char) : Option Int :=
  match basedInteger? cs with
  | some z => some z
  | none =>
    let (negative, r) := splitSign cs
    (wholeRun? r).map fun ds => if negative then -(digitsValue ds : Int) else digitsValue ds

/-- The exponent behind the mark `e`. -/
def exponent? (cs : List Char) : Option Int :=
  let (negative, r) := splitSign cs
  (digitRun? isDigit r).map fun ds => if negative then -(digitsValue ds : Int) else digitsValue ds

/-- The digits of a mantissa before and after its point; `true` allows it to have no point. -/
def mantissa? (pointless : Bool) (cs : List Char) : Option (List Char × List Char) :=
  match cs.splitOn '.' with
  | [whole] => if pointless then (wholeRun? whole).map fun w => (w, []) else none
  | [whole, frac] =>
    (wholeRun? whole).bind fun w => (digitRun? isDigit frac).map fun f => (w, f)
  | _ => none

/-- A number with a fraction or an exponent. -/
def decimalReal? (negative : Bool) (cs : List Char) : Option Real := do
  let isMark (c : Char) : Bool := c == 'e' || c == 'E'
  let power ← match cs.dropWhile (!isMark ·) with
    | [] => some 0
    | _ :: r => exponent? r
  let (whole, frac) ← mantissa? (cs.any isMark) (cs.takeWhile (!isMark ·))
  match Double.ofDecimal? negative (digitsValue (whole ++ frac)) (power - frac.length) with
  | some x => return .finite x
  | none => return .tooLarge

def real? (cs : List Char) : Option Real :=
  let (negative, r) := splitSign cs
  if r = ['i', 'n', 'f'] then some (.infinite negative)
  else if r = ['n', 'a', 'n'] then some .undefined
  else decimalReal? negative r

def scalar? (cs : List Char) : Option Toml :=
  if cs = ['t', 'r', 'u', 'e'] then some (.boolean true)
  else if cs = ['f', 'a', 'l', 's', 'e'] then some (.boolean false)
  else
    match integer? cs, real? cs, datetime? cs with
    | some z, _, _ => some (.integer z)
    | none, some x, _ => some (.real x)
    | none, none, some t => some (.datetime t)
    | none, none, none => none

/-- The characters that end a scalar. -/
def endsScalar (c : Char) : Bool :=
  c == ' ' || c == '\t' || c == '\n' || c == '\r' || c == ',' || c == ']' || c == '\x7d' ||
    c == '#' || c == '=' || c == '[' || c == '\x7b' || c == '"' || c == '\''

/-- The scalar in front of a text. A date and a time may have a blank between them. -/
def readScalar? (cs : List Char) : Option (Toml × List Char) :=
  let first := cs.takeWhile (!endsScalar ·)
  let rest := cs.drop first.length
  match rest with
  | ' ' :: d :: r =>
    if looksLikeDate first && isDigit d then
      let second := (d :: r).takeWhile (!endsScalar ·)
      (scalar? (first ++ ' ' :: second)).map fun v => (v, (d :: r).drop second.length)
    else (scalar? first).map fun v => (v, rest)
  | rest => (scalar? first).map fun v => (v, rest)

end ResourceBuild.Toml
