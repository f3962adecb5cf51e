import ResourceBuild.Decode.Record

/-!
# JSON as a document

The shapes of JSON values.
-/

namespace ResourceBuild.Decode

def jsonShape : Json → Shape Json
  | .null => .null
  | .boolean b => .boolean b
  | .number (.integer z) => .integer z
  | .number (.real x) => .real (String.ofList (Json.realText x))
  | .text s => .text s
  | .array xs => .sequence xs
  | .object ms => .table ms

instance : Document Json := ⟨jsonShape, some, fun _ => true, true⟩

end ResourceBuild.Decode
