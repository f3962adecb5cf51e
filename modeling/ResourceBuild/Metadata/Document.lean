import ResourceBuild.Json.Printer
import ResourceBuild.Json.Reader
import ResourceBuild.Text.Pieces

/-!
# The metadata document

The record of a package: a JSON object whose members keep their order. Members are looked up by
name or by a path of names and positions, and the version can be replaced.
-/

namespace ResourceBuild

structure Metadata where
  members : Members := []

namespace Metadata

/-- Why a text or value is no metadata document. -/
inductive Invalid where
  | notJson (error : Json.ParseError)
  | notObject (found : String)
  deriving DecidableEq

def kindName : Json → String
  | .null => "null"
  | .boolean _ => "a boolean"
  | .number _ => "a number"
  | .text _ => "a string"
  | .array _ => "an array"
  | .object _ => "an object"

/-- The document a value is; only an object is one. -/
def ofJson : Json → Except Invalid Metadata
  | .object ms => .ok ⟨ms⟩
  | v => .error (.notObject (kindName v))

/-- The document a text holds. -/
def parse (s : String) : Except Invalid Metadata :=
  match Json.parse s with
  | .ok v => ofJson v
  | .error e => .error (.notJson e)

def Invalid.message : Invalid → String
  | .notJson e => "Failed to parse metadata document: " ++ e.message
  | .notObject found =>
    "Invalid metadata document: expected an object at the root, found " ++ found

/-- The indented text of a document, with a line end behind it. -/
def render (width : Nat) (d : Metadata) : String :=
  Json.pretty width (.object d.members) ++ "\n"

def pathSeparator : Char := '.'

/-- One step from a value: to the member of this name, or to the item at this position. -/
def step? (v : Json) (segment : String) : Option Json :=
  match v with
  | .object ms => Members.find? segment ms
  | .array xs => (Text.readIndex? (Decimal.Word.size 64) segment).bind (xs[·]?)
  | _ => none

/-- Looks up a key. A key with dots is a path; any other is the name of a member. -/
def lookup (d : Metadata) (key : String) : Option Json :=
  if pathSeparator ∈ key.toList then
    match Text.cut pathSeparator key with
    | [] => none
    | first :: rest => (Members.find? first d.members).bind (rest.foldlM step? ·)
  else
    Members.find? key d.members

def versionKey : String := "version"

/-- The version, if it is a text. -/
def version? (d : Metadata) : Option String :=
  (Members.find? versionKey d.members).bind Json.text?

/-- The document with this version; all else stays as it is. -/
def setVersion (v : String) (d : Metadata) : Metadata :=
  ⟨Members.insert versionKey (.text v) d.members⟩

/-- The document with this version, if one is given. -/
def withVersion (v : Option String) (d : Metadata) : Metadata :=
  match v with
  | none => d
  | some v => d.setVersion v

end Metadata

end ResourceBuild
