import ResourceBuild.Decode.Json
import ResourceBuild.Manifest.Declaration

/-!
# Payloads

The rows of a section, decoded from the free-form data of its declaration. Rows have exactly the
fields of their kind.
-/

namespace ResourceBuild.Manifest

open Decode

def Entry.record : Record :=
  ⟨"KeyValueEntry", [.plain "key", .plain "value"], true⟩

def Entry.checkField (name : String) (v : Json) : Except DecodeError Unit :=
  match name with
  | "key" => discard (text v)
  | "value" => discard (free v)
  | _ => .ok ()

def Entry.decode (a : Json) : Except DecodeError Entry := do
  let fs ← Entry.record.read Entry.checkField a
  let key ← fs.required "key" text
  let value ← fs.required "value" free
  Entry.record.bound a
  return ⟨key, value⟩

def Projection.record : Record where
  name := "MetadataProjection"
  fields :=
    [⟨"manifest_key", ["manifestKey", "manifest_key"]⟩,
      ⟨"source_key", ["sourceKey", "sourceKeyPath", "source_key", "source_key_path"]⟩]
  closed := true

def Projection.checkField (name : String) (v : Json) : Except DecodeError Unit :=
  match name with
  | "manifest_key" => discard (text v)
  | "source_key" => discard (text v)
  | _ => .ok ()

def Projection.decode (a : Json) : Except DecodeError Projection := do
  let fs ← Projection.record.read Projection.checkField a
  let manifestKey ← fs.required "manifest_key" text
  let sourceKey ← fs.required "source_key" text
  Projection.record.bound a
  return ⟨manifestKey, sourceKey⟩

def Convar.record : Record :=
  ⟨"Convar", [.plain "description", .plain "name", .plain "type", .plain "default"], true⟩

def Convar.checkField (name : String) (v : Json) : Except DecodeError Unit :=
  match name with
  | "description" => discard (text v)
  | "name" => discard (text v)
  | "type" => discard (text v)
  | "default" => discard (free v)
  | _ => .ok ()

def Convar.decode (a : Json) : Except DecodeError Convar := do
  let fs ← Convar.record.read Convar.checkField a
  let description ← fs.required "description" text
  let name ← fs.required "name" text
  let kind ← fs.required "type" text
  let initial ← fs.required "default" free
  Convar.record.bound a
  return ⟨description, name, kind, initial⟩

namespace Declaration

/-- The data of a declaration; where there is none, no rows. -/
def rows (d : Declaration) : Json :=
  match d.data with
  | none => .array []
  | some .null => .array []
  | some v => v

/-- The body of a section of this kind, with the rows that the declaration gives. -/
def decodeBody (d : Declaration) (kind : Kind) : Except DecodeError Body :=
  match kind with
  | .keyValue => Body.keyValue <$> list Entry.decode d.rows
  | .packageMetadata => Body.packageMetadata <$> list Projection.decode d.rows
  | .list =>
    Body.list (d.singularKey.getD "") (d.pluralKey.getD "") <$> list text d.rows
  | .convarCategory =>
    let header := d.category.getD {}
    let category := ⟨header.name.getD "", header.description.getD ""⟩
    Body.convarCategory category <$> list Convar.decode d.rows

end Declaration

end ResourceBuild.Manifest
