import ResourceBuild.Config.Decode
import ResourceBuild.Toml.Printer

/-!
# Writing a configuration as TOML

A configuration is written with every setting in its place. TOML has no null, so a configuration
whose free-form values hold one cannot be written.
-/

namespace ResourceBuild.Config

/-- The members of a table, some of which may be absent. -/
abbrev Settings := List (String × Option Toml)

/-- The table of the settings that are there. -/
def tableOf (settings : Settings) : Toml :=
  .table (settings.filterMap fun m => m.2.map fun v => (m.1, v))

mutual

/-- A free-form value as TOML. -/
def freeToml? : Json → Option Toml
  | .null => none
  | .boolean b => some (.boolean b)
  | .number (.integer z) => some (.integer z)
  | .number (.real x) => some (.real (.finite x))
  | .text s => some (.text s)
  | .array xs => (freeItems? xs).map Toml.array
  | .object ms => (freeMembers? ms).map Toml.table

def freeItems? : List Json → Option (List Toml)
  | [] => some []
  | x :: xs => do return (← freeToml? x) :: (← freeItems? xs)

def freeMembers? : List (String × Json) → Option (List (String × Toml))
  | [] => some []
  | (k, v) :: ms => do return (k, ← freeToml? v) :: (← freeMembers? ms)

end

def MetadataSettings.toToml (s : MetadataSettings) : Toml :=
  tableOf [("path", some (.text s.path.text)), ("version_env", s.versionVariable.map Toml.text),
    ("version_prefix", s.versionMark.map Toml.text), ("indent", some (.integer s.indent))]

def StampSettings.toToml (s : StampSettings) : Toml :=
  tableOf [("output", some (.text s.output.text)), ("style", some (.text s.style.name)),
    ("locale", s.locale.map Toml.text), ("time_zone", s.timeZone.map Toml.text),
    ("pattern", s.pattern.map Toml.text)]

def categoryToml (c : Manifest.CategoryDraft) : Toml :=
  tableOf [("name", c.name.map Toml.text), ("description", c.description.map Toml.text)]

def declarationToml? (d : Manifest.Declaration) : Option Toml := do
  let data ← match d.data with
    | none => some none
    | some v => (freeToml? v).map some
  return tableOf [("id", d.id.map Toml.text), ("type", d.kind.map Toml.text),
    ("enabled", some (.boolean d.enabled)), ("data", data),
    ("singular_key", d.singularKey.map Toml.text), ("plural_key", d.pluralKey.map Toml.text),
    ("category", d.category.map categoryToml)]

def ManifestSettings.toToml? (s : ManifestSettings) : Option Toml := do
  let sections ← s.sections.mapM declarationToml?
  return tableOf [("output", some (.text s.output.text)), ("sections", some (.array sections))]

def BundleSettings.toToml? (s : BundleSettings) : Option Toml := do
  let options ← freeMembers? s.options
  return tableOf [("entry_points", some (.array (s.entryPoints.map Toml.text))),
    ("output", some (.text s.output.text)), ("program", some (.text s.program)),
    ("options", some (.table options))]

def ReleaseSettings.toToml (s : ReleaseSettings) : Toml :=
  tableOf [("repository", some (.text s.repository)), ("delay_secs", some (.integer s.delay))]

/-- A configuration as TOML, if it can be written. -/
def toToml? (c : Config) : Option Toml := do
  let manifest ← c.manifest.toToml?
  let bundle ← c.bundle.toToml?
  return tableOf [("metadata", some c.metadata.toToml), ("timestamp", some c.stamp.toToml),
    ("manifest", some manifest), ("bundle", some bundle),
    ("release", c.release.map ReleaseSettings.toToml)]

/-- The text of a configuration, if it can be written. -/
def print? (c : Config) : Option String :=
  c.toToml?.map Toml.print

end ResourceBuild.Config
