import ResourceBuild.Decimal.Word
import ResourceBuild.Decode.Error
import ResourceBuild.Json.Printer
import ResourceBuild.Text.Quoted

/-!
# Shapes

One layer of a document value as a decoder sees it, and the decoders of plain values. Any kind of
document whose values have shapes can be decoded.
-/

namespace ResourceBuild.Decode

open Decimal

/-- One layer of a document value; a fractional number is given by the text it is shown with. -/
inductive Shape (α : Type) where
  | null
  | boolean (b : Bool)
  | integer (z : Int)
  | real (shown : String)
  | text (s : String)
  | sequence (items : List α)
  | table (members : List (String × α))

/-- Documents that can be decoded. -/
class Document (α : Type) where
  /-- The outermost layer of a value. -/
  shape : α → Shape α
  /-- The value as free-form JSON, unless it holds a number that JSON cannot keep. -/
  free? : α → Option Json
  /-- Whether a value may stand where nobody asks for it: whether all its numbers can be read. -/
  isReadable : α → Bool
  /-- Whether a record refuses an array with more items than it has fields. -/
  countsItems : Bool

def describeInteger (z : Int) : String :=
  "integer " ++ ticked (Text.signedDecimal z)

variable {α : Type}

def Shape.describe : Shape α → String
  | .null => "null"
  | .boolean b => "boolean " ++ ticked (if b then "true" else "false")
  | .integer z => describeInteger z
  | .real shown => "floating point " ++ ticked shown
  | .text s => "string " ++ Text.quoted s
  | .sequence _ => "sequence"
  | .table _ => "map"

/-- The refusal of a value where another form is expected. -/
def Shape.refuse (s : Shape α) (expected : String) : DecodeError :=
  .invalidType s.describe expected

variable [Document α]

def text (a : α) : Except DecodeError String :=
  match Document.shape a with
  | .text s => .ok s
  | s => .error (s.refuse "a string")

def path (a : α) : Except DecodeError String :=
  match Document.shape a with
  | .text s => .ok s
  | s => .error (s.refuse "path string")

def flag (a : α) : Except DecodeError Bool :=
  match Document.shape a with
  | .boolean b => .ok b
  | s => .error (s.refuse "a boolean")

/-- A whole number of 64 bits without a sign; `name` is what messages call it. -/
def count (name : String) (a : α) : Except DecodeError Nat :=
  match Document.shape a with
  | .integer z =>
    if Word.fitsUnsigned 64 z then .ok z.toNat
    else .error (.invalidValue (describeInteger z) name)
  | s => .error (s.refuse name)

def list {β : Type} (item : α → Except DecodeError β) (a : α) : Except DecodeError (List β) :=
  match Document.shape a with
  | .sequence xs => xs.mapM item
  | s => .error (s.refuse "a sequence")

/-- A value of any form. -/
def free (a : α) : Except DecodeError Json :=
  match Document.free? a with
  | some j => .ok j
  | none => .error .numberOverflow

/-- Passes over a value nobody asks for. -/
def passOver (a : α) : Except DecodeError Unit :=
  if Document.isReadable a then .ok () else .error .numberOverflow

def freeTable (a : α) : Except DecodeError Members :=
  match Document.shape a with
  | .table ms => do return Members.ofList (← ms.mapM fun m => do return (m.1, ← free m.2))
  | s => .error (s.refuse "a map")

/-- A value that may be null. -/
def optional {β : Type} (decode : α → Except DecodeError β) (a : α) :
    Except DecodeError (Option β) :=
  match Document.shape a with
  | .null => .ok none
  | _ => some <$> decode a

end ResourceBuild.Decode
