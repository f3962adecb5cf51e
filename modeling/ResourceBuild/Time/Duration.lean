import ResourceBuild.Decimal.Double
import ResourceBuild.Text.Digits

/-!
# Durations

How long something took, in words: milliseconds for less than a second, else seconds with two
places. The seconds are those of a double-precision number.
-/

namespace ResourceBuild.Time

open Decimal (Double)

def nanosecondsPerSecond : Nat := 1000000000

/-- The double nearest to a quotient, as a quotient; a quotient beyond all doubles stays. -/
def roundToDouble (num den : Nat) : Nat × Nat :=
  match Double.nearest? false num den with
  | some x => x.ratio
  | none => (num, den)

/-- The seconds of some nanoseconds: whole seconds and the rest are rounded, and so is their sum. -/
def seconds (nanoseconds : Nat) : Nat × Nat :=
  let (wholeNum, wholeDen) := roundToDouble (nanoseconds / nanosecondsPerSecond) 1
  let (restNum, restDen) :=
    roundToDouble (nanoseconds % nanosecondsPerSecond) nanosecondsPerSecond
  roundToDouble (wholeNum * restDen + restNum * wholeDen) (wholeDen * restDen)

/-- A quotient with two places; a tie goes to the even one. -/
def twoPlaces (num den : Nat) : String :=
  let n := Decimal.roundHalfEven (num * 100) den
  Text.decimal (n / 100) ++ "." ++ Text.padded '0' 2 (n % 100)

def durationText (nanoseconds : Nat) : String :=
  if nanoseconds < nanosecondsPerSecond then Text.decimal (nanoseconds / 1000000) ++ "ms"
  else
    let (num, den) := seconds nanoseconds
    twoPlaces num den ++ "s"

end ResourceBuild.Time
