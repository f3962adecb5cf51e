import ResourceBuild.Build.Load
import ResourceBuild.Bundle.Run
import ResourceBuild.Manifest.Render
import ResourceBuild.Time.Duration

/-!
# Building

A build runs its stages one after the other: the metadata, the time of the build, the manifest and
the bundle. The first stage that fails ends it.
-/

namespace ResourceBuild.Build

open Files (Path Action FileSystem)

inductive Stage where
  | metadata
  | stamp
  | manifest
  | bundle
  deriving DecidableEq

namespace Stage

def all : List Stage := [.metadata, .stamp, .manifest, .bundle]

def name : Stage → String
  | .metadata => "metadata"
  | .stamp => "timestamp"
  | .manifest => "manifest"
  | .bundle => "bundle"

/-- A stage with its number among all stages. -/
def label (s : Stage) : String :=
  s.name ++ " [" ++ Text.decimal (all.idxOf s + 1) ++ "/" ++ Text.decimal all.length ++ "]"

end Stage

/-- What a build is to do. -/
structure Order where
  config : Config
  plan : Config.Plan
  /-- The way to write the time of the build. -/
  format : Time.StampFormat
  /-- The version that replaces the one of the metadata. -/
  version : Option String
  skipBundle : Bool

/-- What a build has made. -/
structure Report where
  metadataPath : Path
  version : Option String
  stampPath : Path
  stamp : String
  manifestPath : Path
  bundlePath : Option Path
  deriving DecidableEq

variable {m : Type → Type} [Monad m] [Host m]

/-- The order for a valid configuration: the time as configured, the version of the environment. -/
def Order.ofConfig (c : Config) (plan : Config.Plan) (skipBundle : Bool) : m Order := do
  return ⟨c, plan, plan.stamp, ← environmentVersion c, skipBundle⟩

/-- Writes the time to a file, and gives the text that was written. -/
def writeStamp (format : Time.StampFormat) (p : Path) : m (Except Error String) := do
  let stamp := format.write (← Host.now)
  match ← FileSystem.writeUnder .createStampDirectory .writeStamp p stamp with
  | .ok () => return .ok stamp
  | .error fault => return .error (.file fault)

def writeManifest (sections : List Section) (d : Metadata) (p : Path) : m (Except Error Unit) := do
  match ← FileSystem.writeUnder .createManifestDirectory .writeManifest p
      (Manifest.render d sections) with
  | .ok () => return .ok ()
  | .error fault => return .error (.file fault)

/-- Steps of a build. Any of them may fail, and the log is kept with the stage that is going on. -/
abbrev Work (m : Type → Type) := ExceptT Error (StateT Log m)

namespace Stage

/-- Tells that a stage begins; gives the time of its beginning. -/
def opened (s : Stage) (staged : Log) : m Nat := do
  staged.begun ("  " ++ s.label)
  Host.ticks

/-- Tells how a stage ended that began at some time. -/
def closed {α : Type} (s : Stage) (staged : Log) (started : Nat) (result : Except Error α) :
    m Unit := do
  let elapsed := Time.durationText ((← Host.ticks) - started)
  match result with
  | .ok _ => staged.done (s.label ++ " (" ++ elapsed ++ ")")
  | .error _ => staged.failed (s.label ++ " (" ++ elapsed ++ ")")

/-- Does the work of a stage, of which the log tells how it begins and ends. -/
def told {α : Type} (s : Stage) (staged : Log) (work : Log → m (Except Error α)) :
    m (Except Error α) := do
  let started ← s.opened staged
  let result ← work staged
  s.closed staged started result
  return result

/-- Runs a stage, which the log names as the one going on for as long as it does. -/
def run {α : Type} (s : Stage) (work : Log → m (Except Error α)) : Work m α := ExceptT.mk do
  modify fun log => { log with stage := some s.name }
  let staged ← get
  let result ← (s.told staged work : m (Except Error α))
  modify fun log => { log with stage := none }
  return result

end Stage

namespace Order

def bundleRequest (o : Order) : Bundle.Request :=
  ⟨o.config.entryPaths, o.config.bundlePath, o.config.bundle.options⟩

def syncMetadata (o : Order) : Work m Metadata :=
  Stage.metadata.run fun _ => do
    let result ← Metadata.sync o.config.metadataPath o.version o.config.metadata.indent
    return result.mapError Error.ofMetadata

/-- The stage that writes the time; gives what was written. -/
def stampTime (o : Order) : Work m String :=
  Stage.stamp.run fun _ => writeStamp o.format o.config.stampPath

/-- The stage that writes the manifest of a document. -/
def listManifest (o : Order) (document : Metadata) : Work m Unit :=
  Stage.manifest.run fun _ => writeManifest o.plan.sections document o.config.manifestPath

/-- The stage that bundles, unless it is to be left out; gives the path of the bundle. -/
def bundleSources (o : Order) (bundler : Bundle.Bundler m) : Work m (Option Path) := do
  if o.skipBundle then
    let _ ← ((← get).info "Skipping bundle stage" : m Unit)
    return none
  else
    Stage.bundle.run fun staged => bundler staged o.bundleRequest
    return some o.config.bundlePath

def stages (o : Order) (bundler : Bundle.Bundler m) : Work m Report := do
  let document ← o.syncMetadata
  let stamp ← o.stampTime
  o.listManifest document
  let bundlePath ← o.bundleSources bundler
  return ⟨o.config.metadataPath, document.version?, o.config.stampPath, stamp,
    o.config.manifestPath, bundlePath⟩

/-- Runs a build, and tells how long it took if it came to its end. -/
def carryOut (o : Order) (bundler : Bundle.Bundler m) : StateT Log m (Except Error Report) := do
  let started ← (Host.ticks : m Nat)
  match ← (o.stages bundler).run with
  | .error e => return .error e
  | .ok report =>
    let elapsed := Time.durationText ((← (Host.ticks : m Nat)) - started)
    (Host.complainLine ("Finished in: " ++ elapsed) : m Unit)
    return .ok report

end Order

end ResourceBuild.Build
