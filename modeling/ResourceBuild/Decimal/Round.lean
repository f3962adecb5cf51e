/-!
# Rounding quotients

A quotient of naturals rounded to the nearest natural, ties going to the even neighbour.
-/

namespace ResourceBuild.Decimal

/-- `num / den` rounded to the nearest natural; a tie goes to the even neighbour. -/
def roundHalfEven (num den : Nat) : Nat :=
  let q := num / den
  let r := num % den
  if 2 * r < den then q
  else if den < 2 * r then q + 1
  else q + q % 2

/-- The ratio `num / den`, times `base` to the power `k`. -/
def scale (base : Nat) (k : Int) (num den : Nat) : Nat × Nat :=
  if 0 ≤ k then (num * Nat.pow base k.toNat, den) else (num, den * Nat.pow base (-k).toNat)

end ResourceBuild.Decimal
