import ResourceBuild.Text.Digits
import ResourceBuild.Text.Pieces

/-!
# Decoding errors

Why a value is not of the form that a record, a text or another typed value has.
-/

namespace ResourceBuild.Decode

/-- Why a value does not decode. The found value and the expected form are given in words. -/
inductive DecodeError where
  | invalidType (found expected : String)
  | invalidValue (found expected : String)
  | missingField (name : String)
  | duplicateField (name : String)
  | unknownField (name : String) (known : List String)
  | unknownVariant (name : String) (known : List String)
  | tooFewItems (count : Nat) (record : String) (fields : Nat)
  | tooManyItems (count : Nat)
  | notAChoice
  | choiceCount (any : Bool)
  | choiceWithContent (form : String)
  | choiceWithValue (found : String)
  | numberOverflow
  deriving DecidableEq

/-- A name between backquotes. -/
def ticked (name : String) : String :=
  "`" ++ name ++ "`"

/-- Which names would be known. -/
def oneOf (known : List String) : String :=
  match known with
  | [] => "there are no fields"
  | [a] => "expected " ++ ticked a
  | [a, b] => "expected " ++ ticked a ++ " or " ++ ticked b
  | names => "expected one of " ++ Text.join ", " (names.map ticked)

def DecodeError.message : DecodeError → String
  | .invalidType found expected => "invalid type: " ++ found ++ ", expected " ++ expected
  | .invalidValue found expected => "invalid value: " ++ found ++ ", expected " ++ expected
  | .missingField name => "missing field " ++ ticked name
  | .duplicateField name => "duplicate field " ++ ticked name
  | .unknownField name known => "unknown field " ++ ticked name ++ ", " ++ oneOf known
  | .unknownVariant name known => "unknown variant " ++ ticked name ++ ", " ++ oneOf known
  | .tooFewItems count record fields =>
    "invalid length " ++ Text.decimal count ++ ", expected struct " ++ record ++ " with " ++
      Text.decimal fields ++ (if fields = 1 then " element" else " elements")
  | .tooManyItems count =>
    "invalid length " ++ Text.decimal count ++ ", expected fewer elements in array"
  | .notAChoice => "wanted string or table"
  | .choiceCount any =>
    if any then "wanted exactly 1 element, more than 1 element"
    else "wanted exactly 1 element, found 0 elements"
  | .choiceWithContent form => "expected empty " ++ form
  | .choiceWithValue found => "expected table, found " ++ found
  | .numberOverflow => "number overflowed"

end ResourceBuild.Decode
