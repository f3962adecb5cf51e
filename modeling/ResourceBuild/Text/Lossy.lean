/-!
# Bytes as text

Bytes that should be UTF-8. Where they are not, the replacement character stands for each longest
run of bytes that begins a character but does not complete it, and for each byte that begins none.
-/

namespace ResourceBuild.Text

def replacement : Char := '\uFFFD'

/-- The value that a byte adds to the character it continues. -/
def addContinuation (n : Nat) (b : UInt8) : Nat :=
  n * 64 + (b.toNat - 0x80)

/--
How a character goes on after its first byte: the bounds of the second byte, the number of bytes
behind that, and the value of the first byte.
-/
def leadByte? (b : UInt8) : Option (UInt8 × UInt8 × Nat × Nat) :=
  if 0xC2 ≤ b && b ≤ 0xDF then some (0x80, 0xBF, 0, b.toNat - 0xC0)
  else if b = 0xE0 then some (0xA0, 0xBF, 1, 0)
  else if b = 0xED then some (0x80, 0x9F, 1, 0xD)
  else if 0xE1 ≤ b && b ≤ 0xEF then some (0x80, 0xBF, 1, b.toNat - 0xE0)
  else if b = 0xF0 then some (0x90, 0xBF, 2, 0)
  else if 0xF1 ≤ b && b ≤ 0xF3 then some (0x80, 0xBF, 2, b.toNat - 0xF0)
  else if b = 0xF4 then some (0x80, 0x8F, 2, 4)
  else none

/--
The characters of some bytes. A character that has begun is given by its value so far and by how
many bytes it still needs, of which the next one has to lie between the bounds.
-/
def decodeFrom : Option (Nat × Nat × UInt8 × UInt8) → List UInt8 → List Char
  | none, [] => []
  | some _, [] => [replacement]
  | none, b :: bs =>
    if b < 0x80 then Char.ofNat b.toNat :: decodeFrom none bs
    else
      match leadByte? b with
      | some (low, high, more, n) => decodeFrom (some (n, more, low, high)) bs
      | none => replacement :: decodeFrom none bs
  | some (n, more, low, high), b :: bs =>
    if low ≤ b && b ≤ high then
      let n := addContinuation n b
      match more with
      | 0 => Char.ofNat n :: decodeFrom none bs
      | more + 1 => decodeFrom (some (n, more, 0x80, 0xBF)) bs
    else if b < 0x80 then replacement :: Char.ofNat b.toNat :: decodeFrom none bs
    else
      match leadByte? b with
      | some (low, high, more, n) => replacement :: decodeFrom (some (n, more, low, high)) bs
      | none => replacement :: replacement :: decodeFrom none bs

def lossy (bytes : ByteArray) : String :=
  String.ofList (decodeFrom none bytes.data.toList)

end ResourceBuild.Text
