import ResourceBuild.Decimal.Round

/-!
# Double-precision numbers

A finite double is a sign and its place in the ascending list of the non-negative doubles. The
place `E * 2 ^ 52 + f` stands for `f * 2 ^ (-1074)` when `E = 0` and for
`(2 ^ 52 + f) * 2 ^ (E - 1075)` otherwise, so neighbouring places are neighbouring numbers, every
place is a number, and every number has one place.
-/

namespace ResourceBuild.Decimal

/-- The number of doubles from a power of two up to below the next. -/
def octave : Nat := Nat.pow 2 52

/-- A finite double-precision number. Zero has a sign too. -/
structure Double where
  negative : Bool
  place : Nat
  place_lt : place < 2047 * octave
  deriving DecidableEq

namespace Double

def zero (negative : Bool) : Double :=
  ⟨negative, 0, by decide⟩

def isZero (x : Double) : Bool :=
  x.place == 0

/-- The whole multiple of a power of two that the number is, its sign left out. -/
def binary (x : Double) : Nat × Int :=
  let e : Nat := x.place / octave
  let f : Nat := x.place % octave
  if e = 0 then (f, -1074) else (octave + f, (e : Int) - 1075)

/-- The number as a quotient of naturals, its sign left out. -/
def ratio (x : Double) : Nat × Nat :=
  let (m, q) := x.binary
  scale 2 q m 1

/-- The exponent `e` with `2 ^ e ≤ num / den < 2 ^ (e + 1)`, for a positive quotient. -/
def binaryExponent (num den : Nat) : Int :=
  let e := (num.log2 : Int) - (den.log2 : Int)
  let (n, d) := scale 2 (-e) num den
  if d ≤ n then e else e - 1

/-- The place of the double nearest to `num / den`, when the list of places would not end. -/
def nearestPlace (num den : Nat) : Nat :=
  if num = 0 then 0
  else
    -- the least exponent serves the subnormal numbers too
    let e := (max 1 (binaryExponent num den + 1023)).toNat
    let (n, d) := scale 2 (1075 - (e : Int)) num den
    (e - 1) * octave + roundHalfEven n d

/-- The double nearest to `± num / den`, ties to even; none when that is beyond the largest. -/
def nearest? (negative : Bool) (num den : Nat) : Option Double :=
  let p := nearestPlace num den
  if h : p < 2047 * octave then some ⟨negative, p, h⟩ else none

/-- The double nearest to `± m * 10 ^ e`; far outside the range of doubles no power is computed. -/
def ofDecimal? (negative : Bool) (m : Nat) (e : Int) : Option Double :=
  if m = 0 then some (zero negative)
  else
    let bits : Int := m.log2
    if 1100 < e then none
    else if e < -400 - bits then some (zero negative)
    else
      let (n, d) := scale 10 e m 1
      nearest? negative n d

end Double

end ResourceBuild.Decimal
