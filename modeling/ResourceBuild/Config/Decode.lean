import ResourceBuild.Config.Basic
import ResourceBuild.Toml.Reader

/-!
# Reading a configuration

A configuration is a TOML document. Settings that are not there have their defaults, and members
that are no settings are passed over.
-/

namespace ResourceBuild.Config

open Decode

namespace StampStyle

/-- The styles under their names. -/
def named : List (String × StampStyle) :=
  [("iso", .iso), ("locale", .locale), ("custom", .custom)]

def name : StampStyle → String
  | .iso => "iso"
  | .locale => "locale"
  | .custom => "custom"

def ofName (s : String) : Except DecodeError StampStyle :=
  match named.lookup s with
  | some style => .ok style
  | none => .error (.unknownVariant s (named.map Prod.fst))

/-- Refuses what stands beside a style, unless it is empty. -/
def refuseContent : Toml → Except DecodeError Unit
  | .array [] => .ok ()
  | .table [] => .ok ()
  | .array _ => .error (.choiceWithContent "array")
  | .table _ => .error (.choiceWithContent "table")
  | .text _ => .error (.choiceWithValue "string")
  | .integer _ => .error (.choiceWithValue "integer")
  | .real _ => .error (.choiceWithValue "float")
  | .boolean _ => .error (.choiceWithValue "boolean")
  | .datetime _ => .error (.choiceWithValue "datetime")

def decode : Toml → Except DecodeError StampStyle
  | .text s => ofName s
  | .table [] => .error (.choiceCount false)
  | .table [(key, v)] => do
    let style ← ofName key
    refuseContent v
    return style
  | .table _ => .error (.choiceCount true)
  | _ => .error .notAChoice

end StampStyle

namespace MetadataSettings

def record : Record :=
  ⟨"MetadataConfig",
    [.plain "path", .plain "version_env", .plain "version_prefix", .plain "indent"], false⟩

/-- A depth of indentation. -/
def width (v : Toml) : Except DecodeError Nat :=
  count "usize" v

def checkField (name : String) (v : Toml) : Except DecodeError Unit :=
  match name with
  | "path" => discard (Decode.path v)
  | "version_env" => discard (text v)
  | "version_prefix" => discard (text v)
  | "indent" => discard (width v)
  | _ => .ok ()

def decode (v : Toml) : Except DecodeError MetadataSettings := do
  let fs ← record.read checkField v
  let file ← fs.withDefault "path" "" Decode.path
  let versionVariable ← fs.optional "version_env" text
  let versionMark ← fs.optional "version_prefix" text
  let indent ← fs.withDefault "indent" 2 width
  return ⟨⟨file⟩, versionVariable, versionMark, indent⟩

end MetadataSettings

namespace StampSettings

def record : Record :=
  ⟨"TimestampConfig",
    [.plain "output", .plain "style", .plain "locale", .plain "time_zone", .plain "pattern"], false⟩

def checkField (name : String) (v : Toml) : Except DecodeError Unit :=
  match name with
  | "output" => discard (Decode.path v)
  | "style" => discard (StampStyle.decode v)
  | "locale" => discard (text v)
  | "time_zone" => discard (text v)
  | "pattern" => discard (text v)
  | _ => .ok ()

def decode (v : Toml) : Except DecodeError StampSettings := do
  let fs ← record.read checkField v
  let output ← fs.withDefault "output" "" Decode.path
  let style ← fs.withDefault "style" .iso StampStyle.decode
  let locale ← fs.optional "locale" text
  let timeZone ← fs.optional "time_zone" text
  let pattern ← fs.optional "pattern" text
  return ⟨⟨output⟩, style, locale, timeZone, pattern⟩

end StampSettings

namespace ManifestSettings

def record : Record :=
  ⟨"ManifestConfig", [.plain "output", .plain "sections"], false⟩

def checkField (name : String) (v : Toml) : Except DecodeError Unit :=
  match name with
  | "output" => discard (Decode.path v)
  | "sections" => discard (list Manifest.Declaration.decode v)
  | _ => .ok ()

def decode (v : Toml) : Except DecodeError ManifestSettings := do
  let fs ← record.read checkField v
  let output ← fs.withDefault "output" "" Decode.path
  let sections ← fs.withDefault "sections" [] (list Manifest.Declaration.decode)
  return ⟨⟨output⟩, sections⟩

end ManifestSettings

namespace BundleSettings

def record : Record :=
  ⟨"BundleConfig",
    [.plain "entry_points", .plain "output", .plain "program", .plain "options"], false⟩

def checkField (name : String) (v : Toml) : Except DecodeError Unit :=
  match name with
  | "entry_points" => discard (list text v)
  | "output" => discard (Decode.path v)
  | "program" => discard (text v)
  | "options" => discard (freeTable v)
  | _ => .ok ()

def decode (v : Toml) : Except DecodeError BundleSettings := do
  let fs ← record.read checkField v
  let entryPoints ← fs.withDefault "entry_points" [] (list text)
  let output ← fs.withDefault "output" "" Decode.path
  let program ← fs.withDefault "program" "esbuild" text
  let options ← fs.withDefault "options" [] freeTable
  return ⟨entryPoints, ⟨output⟩, program, options⟩

end BundleSettings

namespace ReleaseSettings

def record : Record :=
  ⟨"ReleaseConfig", [.plain "repository", .plain "delay_secs"], false⟩

def seconds (v : Toml) : Except DecodeError Nat :=
  count "u64" v

def checkField (name : String) (v : Toml) : Except DecodeError Unit :=
  match name with
  | "repository" => discard (text v)
  | "delay_secs" => discard (seconds v)
  | _ => .ok ()

def decode (v : Toml) : Except DecodeError ReleaseSettings := do
  let fs ← record.read checkField v
  let repository ← fs.withDefault "repository" "" text
  let delay ← fs.withDefault "delay_secs" 5 seconds
  return ⟨repository, delay⟩

end ReleaseSettings

def record : Record :=
  ⟨"BuildConfig",
    [.plain "metadata", .plain "timestamp", .plain "manifest", .plain "bundle", .plain "release"],
    false⟩

def checkField (name : String) (v : Toml) : Except DecodeError Unit :=
  match name with
  | "metadata" => discard (MetadataSettings.decode v)
  | "timestamp" => discard (StampSettings.decode v)
  | "manifest" => discard (ManifestSettings.decode v)
  | "bundle" => discard (BundleSettings.decode v)
  | "release" => discard (ReleaseSettings.decode v)
  | _ => .ok ()

def decode (v : Toml) : Except DecodeError Config := do
  let fs ← record.read checkField v
  let metadata ← fs.withDefault "metadata" {} MetadataSettings.decode
  let stamp ← fs.withDefault "timestamp" {} StampSettings.decode
  let manifest ← fs.withDefault "manifest" {} ManifestSettings.decode
  let bundle ← fs.withDefault "bundle" {} BundleSettings.decode
  let release ← fs.optional "release" ReleaseSettings.decode
  return ⟨metadata, stamp, manifest, bundle, release, ⟨""⟩⟩

/-- Why a text is no configuration. -/
inductive Unreadable where
  | syntaxError
  | schema (error : DecodeError)
  deriving DecidableEq

/--
The configuration in a text; its relative paths start from `base`. Only for a document that is plain
TOML it is told what does not decode.
-/
def parse (base : Files.Path) (s : String) : Except Unreadable Config :=
  match Toml.parse? s with
  | none => .error .syntaxError
  | some v =>
    match decode v with
    | .ok c => .ok { c with base := base }
    | .error e => .error (if v.isPlain then .schema e else .syntaxError)

end ResourceBuild.Config
