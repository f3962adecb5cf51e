import ResourceBuild.Decode.Record
import ResourceBuild.Manifest.Section

/-!
# Section declarations

A section as a configuration declares it. Every field may be missing, so that an incomplete
declaration can be reported together with all else that is wrong.
-/

namespace ResourceBuild.Manifest

open Decode

/-- The header of a category as it is declared. -/
structure CategoryDraft where
  name : Option String := none
  description : Option String := none
  deriving DecidableEq

structure Declaration where
  id : Option String := none
  kind : Option String := none
  enabled : Bool := true
  data : Option Json := none
  singularKey : Option String := none
  pluralKey : Option String := none
  category : Option CategoryDraft := none

namespace CategoryDraft

def record : Record :=
  ⟨"CategoryHeaderSpec", [.plain "name", .plain "description"], false⟩

variable {α : Type} [Document α]

def checkField (name : String) (v : α) : Except DecodeError Unit :=
  match name with
  | "name" => discard (Decode.optional text v)
  | "description" => discard (Decode.optional text v)
  | _ => .ok ()

def decode (a : α) : Except DecodeError CategoryDraft := do
  let fs ← record.read checkField a
  let name ← fs.optional "name" text
  let description ← fs.optional "description" text
  record.bound a
  return ⟨name, description⟩

end CategoryDraft

namespace Declaration

def record : Record where
  name := "SectionSpec"
  fields :=
    [.plain "id", .plain "type", .plain "enabled", .plain "data",
      ⟨"singular_key", ["singularKey", "singular_key"]⟩,
      ⟨"plural_key", ["pluralKey", "plural_key"]⟩,
      .plain "category"]
  closed := false

variable {α : Type} [Document α]

def checkField (name : String) (v : α) : Except DecodeError Unit :=
  match name with
  | "id" => discard (Decode.optional text v)
  | "type" => discard (Decode.optional text v)
  | "enabled" => discard (flag v)
  | "data" => discard (Decode.optional free v)
  | "singular_key" => discard (Decode.optional text v)
  | "plural_key" => discard (Decode.optional text v)
  | "category" => discard (Decode.optional CategoryDraft.decode v)
  | _ => .ok ()

def decode (a : α) : Except DecodeError Declaration := do
  let fs ← record.read checkField a
  let id ← fs.optional "id" text
  let kind ← fs.optional "type" text
  let enabled ← fs.withDefault "enabled" true flag
  let data ← fs.optional "data" free
  let singularKey ← fs.optional "singular_key" text
  let pluralKey ← fs.optional "plural_key" text
  let category ← fs.optional "category" CategoryDraft.decode
  record.bound a
  return ⟨id, kind, enabled, data, singularKey, pluralKey, category⟩

end Declaration

end ResourceBuild.Manifest
