import ResourceBuild.Decode.Json
import ResourceBuild.Json.Reader

/-!
# Published releases

What the release feed tells about the latest release.
-/

namespace ResourceBuild.Release

open Decode

structure Descriptor where
  tag : String
  url : String := ""
  isPrerelease : Bool := false
  deriving DecidableEq

namespace Descriptor

def record : Record :=
  ⟨"ReleaseDescriptor", [.plain "tag_name", .plain "html_url", .plain "prerelease"], false⟩

def checkField (name : String) (v : Json) : Except DecodeError Unit :=
  match name with
  | "tag_name" => discard (text v)
  | "html_url" => discard (text v)
  | "prerelease" => discard (flag v)
  | _ => .ok ()

def decode (v : Json) : Except DecodeError Descriptor := do
  let fs ← record.read checkField v
  let tag ← fs.required "tag_name" text
  let url ← fs.withDefault "html_url" "" text
  let isPrerelease ← fs.withDefault "prerelease" false flag
  record.bound v
  return ⟨tag, url, isPrerelease⟩

/-- The release a text tells of. Members with other keys are passed over as they stand. -/
def parse? (s : String) : Option Descriptor :=
  match Json.document (.record record.names) s.toList with
  | .ok v => (decode v).toOption
  | .error _ => none

end Descriptor

end ResourceBuild.Release
