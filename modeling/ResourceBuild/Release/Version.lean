import ResourceBuild.Decimal.Word
import ResourceBuild.Text.Blank
import ResourceBuild.Text.Digits
import ResourceBuild.Text.Pieces

/-!
# Release versions

Versions of three numbers, of which the first that differ decide which version is newer.
-/

namespace ResourceBuild.Release

open Text

structure Version where
  major : Nat
  minor : Nat
  patch : Nat
  deriving DecidableEq

namespace Version

/-- The parts of a version are 64-bit numbers. -/
def bound : Nat := Decimal.Word.size 64

/-- A part of a version: digits, which may begin with zeros, of a number within bounds. -/
def part? (cs : List Char) : Option Nat :=
  if cs.isEmpty || !cs.all isDigit then none
  else if digitsValue cs < bound then some (digitsValue cs) else none

/-- A text without a first character that is no digit. -/
def dropMark (cs : List Char) : List Char :=
  match cs with
  | c :: r => if isDigit c then cs else r
  | [] => []

/-- Three parts with points between them, perhaps behind a mark such as `v`. -/
def parse? (s : String) : Option Version :=
  match (dropMark (trimChars s.toList)).splitOn '.' with
  | [a, b, c] => do return ⟨← part? a, ← part? b, ← part? c⟩
  | _ => none

def text (v : Version) : String :=
  decimal v.major ++ "." ++ decimal v.minor ++ "." ++ decimal v.patch

/-- Whether `w` is newer than `v`. -/
def isOlderThan (v w : Version) : Bool :=
  if v.major = w.major then
    if v.minor = w.minor then decide (v.patch < w.patch) else decide (v.minor < w.minor)
  else decide (v.major < w.major)

end Version

end ResourceBuild.Release
