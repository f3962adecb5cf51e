import ResourceBuild.Json.Basic
import ResourceBuild.Decimal.Shortest

/-!
# Printing JSON

One printer with two layouts: compact text without any blanks, and indented text with one item or
member per line. Doubles are printed with the fewest digits that read back.
-/

namespace ResourceBuild.Json

open Decimal

/-- How the items of arrays and objects are laid out. -/
inductive Layout where
  | compact
  | indented (width : Nat)

/-- What stands in front of an item at this depth. -/
def Layout.lineStart (l : Layout) (depth : Nat) : List Char :=
  match l with
  | .compact => []
  | .indented width => '\n' :: List.replicate (width * depth) ' '

/-- What stands between a key and its value. -/
def Layout.colon : Layout → List Char
  | .compact => [':']
  | .indented _ => [':', ' ']

/-- A character inside a JSON string: quotes, backslashes and control characters are escaped. -/
def escape (c : Char) : List Char :=
  if c = '"' then ['\\', '"']
  else if c = '\\' then ['\\', '\\']
  else if c = '\n' then ['\\', 'n']
  else if c = '\r' then ['\\', 'r']
  else if c = '\t' then ['\\', 't']
  else if c = '\x08' then ['\\', 'b']
  else if c = '\x0c' then ['\\', 'f']
  else if c.toNat < 0x20 then
    let ds := Text.hexDigits c.toNat
    ['\\', 'u'] ++ List.replicate (4 - ds.length) '0' ++ ds
  else [c]

def quoted (s : String) : List Char :=
  '"' :: (s.toList.flatMap escape ++ ['"'])

/--
A double in JSON: positional with at least one digit after the point from `10 ^ (-5)` up to below
`10 ^ 16`, otherwise with a signed exponent.
-/
def realText (x : Double) : List Char :=
  let s := shortest x
  let ds := Text.digits s.digits
  let whole := (ds.length : Int) + s.power
  let size :=
    if -5 < whole ∧ whole ≤ 16 then s.positional true
    else
      let point := match ds with
        | d :: e :: r => d :: '.' :: e :: r
        | ds => ds
      let e := whole - 1
      point ++ 'e' :: (if e < 0 then '-' else '+') :: Text.digits e.natAbs
  if x.negative then '-' :: size else size

def numberText : Number → List Char
  | .integer z => (Text.signedDecimal z).toList
  | .real x => realText x

mutual

/-- The text of a value that stands at the given depth. -/
def write (l : Layout) (depth : Nat) : Json → List Char
  | .null => ['n', 'u', 'l', 'l']
  | .boolean true => ['t', 'r', 'u', 'e']
  | .boolean false => ['f', 'a', 'l', 's', 'e']
  | .number n => numberText n
  | .text s => quoted s
  | .array [] => ['[', ']']
  | .array (x :: xs) => '[' :: (writeItems l (depth + 1) (x :: xs) ++ l.lineStart depth ++ [']'])
  | .object [] => ['\x7b', '\x7d']
  | .object (m :: ms) =>
    '\x7b' :: (writeMembers l (depth + 1) (m :: ms) ++ l.lineStart depth ++ ['\x7d'])

def writeItems (l : Layout) (depth : Nat) : List Json → List Char
  | [] => []
  | [x] => l.lineStart depth ++ write l depth x
  | x :: y :: r => l.lineStart depth ++ write l depth x ++ ',' :: writeItems l depth (y :: r)

def writeMembers (l : Layout) (depth : Nat) : List (String × Json) → List Char
  | [] => []
  | [(k, v)] => l.lineStart depth ++ quoted k ++ l.colon ++ write l depth v
  | (k, v) :: m :: r =>
    l.lineStart depth ++ quoted k ++ l.colon ++ write l depth v ++
      ',' :: writeMembers l depth (m :: r)

end

/-- The text of a value without any blanks. -/
def compact (v : Json) : String :=
  String.ofList (write .compact 0 v)

/-- The indented text of a value, `width` blanks per level. -/
def pretty (width : Nat) (v : Json) : String :=
  String.ofList (write (.indented width) 0 v)

end ResourceBuild.Json
