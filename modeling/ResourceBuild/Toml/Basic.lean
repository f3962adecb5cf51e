import ResourceBuild.Decode.Record

/-!
# TOML values

The values of a TOML document, tables with their members in document order. A date or time is kept
as its canonical text.
-/

namespace ResourceBuild

open Decimal (Double)

/-- A floating-point value: a number, an infinity, not a number, or too large for a double. -/
inductive Toml.Real where
  | finite (x : Double)
  | infinite (negative : Bool)
  | undefined
  | tooLarge
  deriving DecidableEq

inductive Toml where
  | text (s : String)
  | integer (z : Int)
  | real (x : Toml.Real)
  | boolean (b : Bool)
  | datetime (canonical : String)
  | array (items : List Toml)
  | table (members : List (String × Toml))

namespace Toml

/-- The key under which a date or time shows its text to a decoder of free-form values. -/
def datetimeKey : String := "$__toml_private_datetime"

/-- How messages show a floating-point value. -/
def Real.shown : Real → String
  | .finite x =>
    (if x.negative then "-" else "") ++ String.ofList ((Decimal.shortest x).positional true)
  | .infinite negative => if negative then "-inf" else "inf"
  | .undefined => "NaN"
  | .tooLarge => "inf"

mutual

/-- Whether a value and all values inside it pass a test. -/
def everywhere (test : Toml → Bool) : Toml → Bool
  | .array xs => test (.array xs) && everyItem test xs
  | .table ms => test (.table ms) && everyMember test ms
  | v => test v

def everyItem (test : Toml → Bool) : List Toml → Bool
  | [] => true
  | x :: xs => everywhere test x && everyItem test xs

def everyMember (test : Toml → Bool) : List (String × Toml) → Bool
  | [] => true
  | (_, v) :: ms => everywhere test v && everyMember test ms

end

/-- Whether every whole number in a value passes a test, and every other number is a double. -/
def numbersFit (fits : Int → Bool) : Toml → Bool :=
  everywhere fun v =>
    match v with
    | .integer z => fits z
    | .real .tooLarge => false
    | _ => true

/-- One layer of a TOML value; a date or time shows as a table with its text. -/
def shape : Toml → Decode.Shape Toml
  | .text s => .text s
  | .integer z => .integer z
  | .real x => .real x.shown
  | .boolean b => .boolean b
  | .datetime t => .table [(datetimeKey, .text t)]
  | .array xs => .sequence xs
  | .table ms => .table ms

mutual

/-- The value as JSON; what JSON has no number for is null. -/
def toJson : Toml → Json
  | .text s => .text s
  | .integer z => .number (.integer z)
  | .real (.finite x) => .number (.real x)
  | .real _ => .null
  | .boolean b => .boolean b
  | .datetime t => .object [(datetimeKey, .text t)]
  | .array xs => .array (toJsonItems xs)
  | .table ms => .object (toJsonMembers ms)

def toJsonItems : List Toml → List Json
  | [] => []
  | x :: xs => toJson x :: toJsonItems xs

def toJsonMembers : List (String × Toml) → Members
  | [] => []
  | (k, v) :: ms => (k, toJson v) :: toJsonMembers ms

end

/-- The value as free-form JSON. Its whole numbers have to fit 64 bits, with a sign or without. -/
def free? (v : Toml) : Option Json :=
  if v.numbersFit (Decimal.Word.fits 64) then some v.toJson else none

/-- Whether all numbers of a value can be read; no whole number is read beyond 128 bits. -/
def isReadable (v : Toml) : Bool :=
  v.numbersFit (Decimal.Word.fits 128)

instance : Decode.Document Toml := ⟨shape, free?, isReadable, false⟩

end Toml

end ResourceBuild
