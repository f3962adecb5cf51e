/-!
# Machine words

The bounds of whole numbers that are kept in a fixed number of bits, with a sign or without.
-/

namespace ResourceBuild.Decimal.Word

/-- The number of values that so many bits can have. -/
def size (bits : Nat) : Nat :=
  Nat.pow 2 bits

/-- Whether a whole number fits so many bits without a sign. -/
def fitsUnsigned (bits : Nat) (z : Int) : Bool :=
  decide (0 ≤ z ∧ z < size bits)

/-- Whether a whole number fits so many bits with a sign, which takes one of them. -/
def fitsSigned (bits : Nat) (z : Int) : Bool :=
  decide (-(size (bits - 1) : Int) ≤ z ∧ z < size (bits - 1))

/-- Whether a whole number fits so many bits either way. -/
def fits (bits : Nat) (z : Int) : Bool :=
  fitsSigned bits z || fitsUnsigned bits z

end ResourceBuild.Decimal.Word
