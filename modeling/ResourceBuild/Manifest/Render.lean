import ResourceBuild.Json.Display
import ResourceBuild.Manifest.Literal
import ResourceBuild.Manifest.Section
import ResourceBuild.Metadata.Document

/-!
# Rendering the manifest

The lines of a section, and the text of a manifest: the lines of its sections, with one empty line
behind each section that has any.
-/

namespace ResourceBuild.Manifest

def indent : String := "    "

/-- A key and its value on a line. -/
def entryLine (key value : String) : String :=
  key ++ " " ++ quote value

def Entry.line (e : Entry) : String :=
  entryLine e.key (Json.display e.value)

/-- The value a projection shows: the one looked up in the metadata, if it counts as true. -/
def Projection.value? (p : Projection) (metadata : Metadata) : Option Json :=
  (metadata.lookup p.sourceKey).filter Json.isTruthy

/-- The line of a projection, if it shows a value. -/
def Projection.line? (metadata : Metadata) (p : Projection) : Option String :=
  (p.value? metadata).map fun v => entryLine p.manifestKey (Json.display v)

/-- The lines of a list: a single item under the singular key, more as a block. -/
def listLines (singularKey pluralKey : String) : List String → List String
  | [] => []
  | [item] => [entryLine singularKey item]
  | items =>
    (pluralKey ++ " \x7b") :: (items.map (fun item => indent ++ quote item ++ ",") ++ ["\x7d"])

def Convar.line (c : Convar) : String :=
  indent ++ indent ++ "\x7b " ++ quote c.description ++ ", " ++ quote c.name ++ ", " ++
    quote c.kind ++ ", " ++ quote (Json.display c.initial) ++ " \x7d,"

def categoryLines (category : Category) (convars : List Convar) : List String :=
  ["convar_category " ++ quote category.name ++ " \x7b",
    indent ++ quote category.description ++ ",",
    indent ++ "\x7b"] ++
    convars.map Convar.line ++ [indent ++ "\x7d", "\x7d"]

def Body.lines (metadata : Metadata) : Body → List String
  | .keyValue entries => entries.map Entry.line
  | .packageMetadata projections => projections.filterMap (Projection.line? metadata)
  | .list singularKey pluralKey items => listLines singularKey pluralKey items
  | .convarCategory category convars => categoryLines category convars

/-- The lines of a section; a disabled or empty section has none. -/
def lines (metadata : Metadata) (s : Section) : List String :=
  if s.isRenderable then s.body.lines metadata else []

/-- The text of a section, with an empty line behind it. -/
def sectionText (metadata : Metadata) (s : Section) : String :=
  match lines metadata s with
  | [] => ""
  | ls => Text.join "\n" ls ++ "\n\n"

def render (metadata : Metadata) (sections : List Section) : String :=
  Text.join "" (sections.map (sectionText metadata))

end ResourceBuild.Manifest
