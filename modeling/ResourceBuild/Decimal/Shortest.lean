import ResourceBuild.Decimal.Double
import ResourceBuild.Text.Digits

/-!
# Shortest decimals

The decimal with the fewest digits that reads back as a given double. Of several such decimals the
nearest to the double is taken, and of two equally near ones the even one.
-/

namespace ResourceBuild.Decimal

/-- A decimal `digits * 10 ^ power`. -/
structure Scientific where
  digits : Nat
  power : Int
  deriving DecidableEq

/-- The least `k` with `num / den < 10 ^ k`, for a positive quotient; `fuel` bounds the search. -/
def decimalExponentFrom (num den : Nat) : Nat → Int → Int
  | 0, k => k
  | fuel + 1, k =>
    let (n, d) := scale 10 (-k) num den
    if n < d then k else decimalExponentFrom num den fuel (k + 1)

def decimalExponent (num den : Nat) : Int :=
  -- three binary digits are less than one decimal digit
  let e := Double.binaryExponent num den
  decimalExponentFrom num den 64 (Int.fdiv (e * 30102) 100000 - 1)

/-- The same decimal without trailing zeros in its digits. -/
def Scientific.strip : Nat → Scientific → Scientific
  | 0, s => s
  | fuel + 1, s =>
    if s.digits ≠ 0 ∧ s.digits % 10 = 0 then strip fuel ⟨s.digits / 10, s.power + 1⟩ else s

/-- The decimal with `n` digits that reads back as `x` and is nearest to it, if there is one. -/
def withDigits? (x : Double) (n : Nat) : Option Scientific :=
  let (num, den) := x.ratio
  let power := decimalExponent num den - n
  let (a, b) := scale 10 (-power) num den
  let low := a / b
  let reads (c : Nat) : Bool := Double.ofDecimal? x.negative c power == some x
  match reads low, reads (low + 1) with
  | true, true =>
    if 2 * a < (2 * low + 1) * b then some ⟨low, power⟩
    else if (2 * low + 1) * b < 2 * a then some ⟨low + 1, power⟩
    else some ⟨low + low % 2, power⟩
  | true, false => some ⟨low, power⟩
  | false, true => some ⟨low + 1, power⟩
  | false, false => none

def exact (x : Double) : Scientific :=
  let (m, q) := x.binary
  if 0 ≤ q then ⟨m * Nat.pow 2 q.toNat, 0⟩ else ⟨m * Nat.pow 5 (-q).toNat, q⟩

/-- The shortest decimal that reads back as `x`, its sign left out. -/
def shortest (x : Double) : Scientific :=
  if x.isZero then ⟨0, 0⟩
  else
    -- seventeen digits tell all doubles apart
    let s := ((List.range 17).findSome? fun n => withDigits? x (n + 1)).getD (exact x)
    s.strip 18

/-- Positional notation of a decimal, with at least one digit after the point if `point` is set. -/
def Scientific.positional (point : Bool) (s : Scientific) : List Char :=
  let ds := Text.digits s.digits
  let whole := (ds.length : Int) + s.power
  if 0 ≤ s.power then
    ds ++ List.replicate (if s.digits = 0 then 0 else s.power.toNat) '0' ++
      (if point then ['.', '0'] else [])
  else if 0 < whole then
    ds.take whole.toNat ++ '.' :: ds.drop whole.toNat
  else
    '0' :: '.' :: (List.replicate (-whole).toNat '0' ++ ds)

end ResourceBuild.Decimal
