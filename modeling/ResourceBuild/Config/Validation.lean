import ResourceBuild.Config.Basic
import ResourceBuild.Manifest.Validation
import ResourceBuild.Time.Stamp

/-!
# Validating a configuration

Every part of a configuration is checked by itself, and all that is wrong is reported in one list.
Only a configuration without a fault is built. Which locales can be named is left open.
-/

namespace ResourceBuild.Config

open Text Time

/-- The paths that a configuration has to name. -/
inductive RequiredPath where
  | metadata
  | stamp
  | manifest
  | bundle
  deriving DecidableEq

/-- What can be wrong with a configuration. -/
inductive Violation where
  | missingPath (path : RequiredPath)
  | noEntryPoints
  | blankEntryPoint (position : Nat)
  | noProgram
  | longVersionMark (mark : String)
  | noLocale
  | unknownLocale (name : String)
  | unknownTimeZone (name : String)
  | noPattern
  | invalidPattern (pattern : String)
  | invalidRepository (name : String)
  | invalidSection (violation : Manifest.Violation)
  deriving DecidableEq

def RequiredPath.key : RequiredPath → String
  | .metadata => "metadata.path"
  | .stamp => "timestamp.output"
  | .manifest => "manifest.output"
  | .bundle => "bundle.output"

def Violation.message : Violation → String
  | .missingPath path => path.key ++ " is required"
  | .noEntryPoints => "bundle.entry_points must list at least one entry file"
  | .blankEntryPoint position => "bundle.entry_points[" ++ decimal position ++ "] is blank"
  | .noProgram => "bundle.program must name the bundler executable"
  | .longVersionMark mark =>
    "metadata.version_prefix must be a single character, got '" ++ mark ++ "'"
  | .noLocale => "timestamp.locale is required for the locale style"
  | .unknownLocale name => "timestamp.locale '" ++ name ++ "' is not a known locale"
  | .unknownTimeZone name =>
    "timestamp.time_zone '" ++ name ++ "' must be 'utc', 'local' or an offset like '+02:00'"
  | .noPattern => "timestamp.pattern is required for the custom style"
  | .invalidPattern pattern =>
    "timestamp.pattern '" ++ pattern ++ "' is not a valid strftime pattern"
  | .invalidRepository name =>
    "release.repository must be in 'owner/name' form, got '" ++ name ++ "'"
  | .invalidSection violation => violation.message

def report (violations : List String) : String :=
  "Configuration validation failed:\n  - " ++ join "\n  - " violations

/-! ### The checks -/

/-- A required path that is not there. -/
def requirePath (which : RequiredPath) (p : Files.Path) : List Violation :=
  if p.isEmpty then [.missingPath which] else []

def pathViolations (c : Config) : List Violation :=
  requirePath .metadata c.metadata.path ++ requirePath .stamp c.stamp.output ++
    requirePath .manifest c.manifest.output ++ requirePath .bundle c.bundle.output

/-- The blank ones among some entry points, of which the first is at `position`. -/
def blankEntryPoints (position : Nat) : List String → List Violation
  | [] => []
  | entry :: entries =>
    (if isBlankText entry then [.blankEntryPoint position] else []) ++
      blankEntryPoints (position + 1) entries

def entryViolations (entries : List String) : List Violation :=
  (if entries.isEmpty then [.noEntryPoints] else []) ++ blankEntryPoints 0 entries

def programViolations (program : String) : List Violation :=
  if isBlankText program then [.noProgram] else []

def markViolations : Option String → List Violation
  | none => []
  | some mark => if 1 < mark.length then [.longVersionMark mark] else []

namespace StampSettings

/-- The name of the locale, without blanks around it; nothing if only blanks are given. -/
def localeName? (s : StampSettings) : Option String :=
  nonBlank? s.locale

/-- The name of the time zone; the common one is the default. -/
def zoneName (s : StampSettings) : String :=
  s.timeZone.getD "utc"

def localeViolations (locales : Locales) (s : StampSettings) : List Violation :=
  match s.localeName? with
  | none => [.noLocale]
  | some name => if (locales.named? name).isNone then [.unknownLocale name] else []

def zoneViolations (s : StampSettings) : List Violation :=
  if (Zone.parse? s.zoneName).isNone then [.unknownTimeZone s.zoneName] else []

def patternViolations (s : StampSettings) : List Violation :=
  match s.pattern with
  | none => [.noPattern]
  | some pattern =>
    if pattern.isEmpty then [.noPattern]
    else if (items? pattern.toList).isNone then [.invalidPattern pattern]
    else []

/-- What is wrong with the settings; each style has settings of its own. -/
def violations (locales : Locales) (s : StampSettings) : List Violation :=
  match s.style with
  | .iso => []
  | .locale => s.localeViolations locales ++ s.zoneViolations
  | .custom => s.patternViolations

/-- The way of writing the time that the settings ask for. -/
def format? (locales : Locales) (s : StampSettings) : Option StampFormat :=
  match s.style with
  | .iso => some .iso
  | .locale => do
    let locale ← s.localeName?.bind locales.named?
    let zone ← Zone.parse? s.zoneName
    return .locale locale zone
  | .custom => do
    let pattern ← s.pattern
    if pattern.isEmpty then none
    else (items? pattern.toList).map fun _ => .custom pattern

end StampSettings

def isRepository (s : String) : Bool :=
  match cut '/' s with
  | [owner, name] => !isBlankText owner && !isBlankText name
  | _ => false

def releaseViolations : Option ReleaseSettings → List Violation
  | none => []
  | some s => if isRepository s.repository then [] else [.invalidRepository s.repository]

def sectionViolations (ds : List Manifest.Declaration) : List Violation :=
  (Manifest.validate ds).2.map Violation.invalidSection

/-- All that is wrong with a configuration, part by part. -/
def violations (locales : Locales) (c : Config) : List Violation :=
  c.pathViolations ++ entryViolations c.bundle.entryPoints ++ programViolations c.bundle.program ++
    markViolations c.metadata.versionMark ++ c.stamp.violations locales ++
    releaseViolations c.release ++ sectionViolations c.manifest.sections

/-- What a valid configuration says about the manifest and the time of the build. -/
structure Plan where
  sections : List Section
  stamp : StampFormat

/-- The plan of a configuration, or all that is wrong with it. -/
def validate (locales : Locales) (c : Config) : Except (List Violation) Plan :=
  match c.violations locales with
  | [] => .ok ⟨(Manifest.validate c.manifest.sections).1, (c.stamp.format? locales).getD .iso⟩
  | vs => .error vs

end ResourceBuild.Config
