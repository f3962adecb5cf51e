import ResourceBuild.Json.Basic
import ResourceBuild.Text.Blank

/-!
# Manifest sections

The units a resource manifest is made of. Each kind of section has rows of its own and is rendered
in its own way.
-/

namespace ResourceBuild.Manifest

inductive Kind where
  | keyValue
  | packageMetadata
  | list
  | convarCategory
  deriving DecidableEq

/-- The tag of a kind in configurations and messages. -/
def Kind.tag : Kind → String
  | .keyValue => "key_value"
  | .packageMetadata => "package_metadata"
  | .list => "list"
  | .convarCategory => "convar_category"

/-- The kind a tag names, in either spelling and with blanks around it. -/
def Kind.ofTag? (tag : String) : Option Kind :=
  match Text.trim tag with
  | "key_value" | "keyValue" => some .keyValue
  | "package_metadata" | "packageMetadata" => some .packageMetadata
  | "list" => some .list
  | "convar_category" | "convarCategory" => some .convarCategory
  | _ => none

/-- A key with its value. -/
structure Entry where
  key : String
  value : Json

/-- A manifest key that takes its value from the metadata. -/
structure Projection where
  manifestKey : String
  sourceKey : String
  deriving DecidableEq

/-- The header of a category of console variables. -/
structure Category where
  name : String
  description : String
  deriving DecidableEq

structure Convar where
  description : String
  name : String
  kind : String
  initial : Json

inductive Body where
  | keyValue (entries : List Entry)
  | packageMetadata (projections : List Projection)
  | list (singularKey pluralKey : String) (items : List String)
  | convarCategory (category : Category) (convars : List Convar)

namespace Body

def kind : Body → Kind
  | .keyValue _ => .keyValue
  | .packageMetadata _ => .packageMetadata
  | .list _ _ _ => .list
  | .convarCategory _ _ => .convarCategory

def size : Body → Nat
  | .keyValue entries => entries.length
  | .packageMetadata projections => projections.length
  | .list _ _ items => items.length
  | .convarCategory _ convars => convars.length

def isEmpty (b : Body) : Bool :=
  b.size == 0

end Body

end ResourceBuild.Manifest

namespace ResourceBuild

structure Section where
  id : String
  enabled : Bool
  body : Manifest.Body

def Section.kind (s : Section) : Manifest.Kind :=
  s.body.kind

/-- Whether a section can contribute any lines. -/
def Section.isRenderable (s : Section) : Bool :=
  s.enabled && !s.body.isEmpty

end ResourceBuild
