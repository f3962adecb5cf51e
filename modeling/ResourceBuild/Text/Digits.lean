/-!
# Decimal digits

Naturals as runs of the ASCII digits `0` to `9`: writing, reading and recognising them.
-/

namespace ResourceBuild.Text

def isDigit (c : Char) : Bool :=
  '0' ≤ c && c ≤ '9'

/-- The decimal digits of `n`, without leading zeros. -/
def digits (n : Nat) : List Char :=
  Nat.toDigits 10 n

/-- The number a run of digits stands for; leading zeros do not count. -/
def digitsValue (cs : List Char) : Nat :=
  Nat.ofDigitChars 10 cs 0

/-- The leading digits of a text, and what follows them. -/
def takeDigits (cs : List Char) : List Char × List Char :=
  (cs.takeWhile isDigit, cs.dropWhile isDigit)

def decimal (n : Nat) : String :=
  String.ofList (digits n)

/-- `n` in decimal, with `fill` in front up to `width` characters. -/
def padded (fill : Char) (width n : Nat) : String :=
  let ds := digits n
  String.ofList (List.replicate (width - ds.length) fill ++ ds)

/-- `z` in decimal, with a minus sign in front of a negative number. -/
def signedDecimal (z : Int) : String :=
  if z < 0 then "-" ++ decimal z.natAbs else decimal z.natAbs

/-- Numbers below `bound`, written as an optional plus sign and one or more digits. -/
def readIndex? (bound : Nat) (s : String) : Option Nat :=
  let ds := match s.toList with
    | '+' :: r => r
    | cs => cs
  if ds.isEmpty || !ds.all isDigit then none
  else if digitsValue ds < bound then some (digitsValue ds) else none

/-- The value of a hexadecimal digit, in either case. -/
def hexValue? (c : Char) : Option Nat :=
  if '0' ≤ c && c ≤ '9' then some (c.toNat - '0'.toNat)
  else if 'a' ≤ c && c ≤ 'f' then some (c.toNat - 'a'.toNat + 10)
  else if 'A' ≤ c && c ≤ 'F' then some (c.toNat - 'A'.toNat + 10)
  else none

def hexDigits (n : Nat) : List Char :=
  Nat.toDigits 16 n

end ResourceBuild.Text
