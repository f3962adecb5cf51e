import ResourceBuild.Files.Path
import ResourceBuild.Manifest.Declaration

/-!
# The build configuration

What a build reads, what it writes and how. Every setting has a default, so that a missing one is
found by the validation together with all other faults.
-/

namespace ResourceBuild

open Files (Path)

namespace Config

/-- The metadata file and its version. -/
structure MetadataSettings where
  path : Path := ⟨""⟩
  /-- The environment variable that may hold another version. -/
  versionVariable : Option String := none
  /-- The mark in front of a version, as in `v1.2.3`, that does not belong to it. -/
  versionMark : Option String := none
  /-- How far each level of the written file is indented. -/
  indent : Nat := 2
  deriving DecidableEq

inductive StampStyle where
  | iso
  | locale
  | custom
  deriving DecidableEq

/-- The file with the time of the build. -/
structure StampSettings where
  output : Path := ⟨""⟩
  style : StampStyle := .iso
  locale : Option String := none
  timeZone : Option String := none
  pattern : Option String := none
  deriving DecidableEq

structure ManifestSettings where
  output : Path := ⟨""⟩
  sections : List Manifest.Declaration := []

/-- The bundler: what it bundles and which options it gets. -/
structure BundleSettings where
  entryPoints : List String := []
  output : Path := ⟨""⟩
  program : String := "esbuild"
  options : Members := []

/-- The repository whose releases are watched. -/
structure ReleaseSettings where
  repository : String := ""
  /-- The seconds to wait before its releases are asked for. -/
  delay : Nat := 5
  deriving DecidableEq

end Config

/-- A build configuration. -/
structure Config where
  metadata : Config.MetadataSettings := {}
  stamp : Config.StampSettings := {}
  manifest : Config.ManifestSettings := {}
  bundle : Config.BundleSettings := {}
  release : Option Config.ReleaseSettings := none
  /-- The directory that relative paths start from. -/
  base : Path := ⟨""⟩

namespace Config

/-- A configured path, seen from the directory of the configuration. -/
def resolve (c : Config) (p : Path) : Path :=
  if p.isAbsolute || c.base.isEmpty then p else c.base.join p

def metadataPath (c : Config) : Path := c.resolve c.metadata.path

/-- The file with the time of the build. -/
def stampPath (c : Config) : Path := c.resolve c.stamp.output

def manifestPath (c : Config) : Path := c.resolve c.manifest.output

def bundlePath (c : Config) : Path := c.resolve c.bundle.output

/-- The files that the bundle starts from. -/
def entryPaths (c : Config) : List Path :=
  c.bundle.entryPoints.map fun e => c.resolve ⟨e⟩

def defaultPath : Path := ⟨"fxpack.toml"⟩

def pathVariable : String := "FXPACK_CONFIG"

/-- The configuration file: the one named, else the one the environment names, else the default. -/
def choosePath (named : Option Path) (environment : Option String) : Path :=
  match named, environment with
  | some p, _ => p
  | none, some v => if Text.isBlankText v then defaultPath else ⟨v⟩
  | none, none => defaultPath

end Config

end ResourceBuild
