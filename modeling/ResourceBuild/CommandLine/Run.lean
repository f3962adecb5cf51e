import ResourceBuild.Build.Pipeline
import ResourceBuild.CommandLine.ReleaseCheck
import ResourceBuild.CommandLine.Starter

/-!
# Running commands

What each command does, what it prints, and the exit code it leaves.
-/

namespace ResourceBuild.CommandLine

open Files (Path FileSystem)

inductive Failure where
  | build (error : Build.Error)
  | noDirectory (path : Path)
  | noConfigurationFile (path : Path)
  | noInput
  deriving DecidableEq

def Failure.message : Failure → String
  | .build error => error.message
  | .noDirectory path => "Failed to create directory " ++ path.text
  | .noConfigurationFile path => "Failed to create configuration file " ++ path.text
  | .noInput => "Failed to read input"

variable {m : Type → Type} [Monad m] [Host m]

/-- Reads and validates the configuration that the options name. -/
def loadValid (locales : Time.Locales) (o : Options) (log : Log) :
    m (Except Build.Error (Path × Config × Config.Plan)) := do
  let path ← o.configPath
  log.debug ("Using configuration: " ++ path.text)
  match ← Build.loadValid locales path with
  | .error e => return .error e
  | .ok (config, plan) => return .ok (path, config, plan)

def printReport (r : Build.Report) : m Unit := do
  match r.version with
  | some version => Host.printLine ("version: " ++ version)
  | none => pure ()
  Host.printLine ("timestamp: " ++ r.stamp)
  Host.printLine ("manifest: " ++ r.manifestPath.text)
  match r.bundlePath with
  | some bundle => Host.printLine ("bundle: " ++ bundle.text)
  | none => pure ()

/-- Tells that a build has come to its end, and what it has made. -/
def tellBuilt (r : Build.Report) (log : Log) : m Unit := do
  log.success ("Manifest written to " ++ r.manifestPath.text)
  printReport r

def build (locales : Time.Locales) (skipBundle : Bool) (o : Options) (log : Log) :
    m (Except Failure Unit) := do
  match ← loadValid locales o log with
  | .error e => return .error (.build e)
  | .ok (path, config, plan) =>
    log.step ("Building from " ++ path.text)
    let order ← Build.Order.ofConfig config plan skipBundle
    let (result, log) ← (order.carryOut (Bundle.runProgram config.bundle.program)).run log
    match result with
    | .error e => return .error (.build e)
    | .ok report =>
      tellBuilt report log
      return .ok ()

def check (locales : Time.Locales) (o : Options) (log : Log) : m (Except Failure Unit) := do
  match ← loadValid locales o log with
  | .error e => return .error (.build e)
  | .ok (path, _, plan) =>
    Host.printLine ("✔ " ++ path.text ++ " is valid (" ++ Text.decimal plan.sections.length ++
      " sections, " ++ Text.decimal (plan.sections.countP Section.isRenderable) ++ " enabled)")
    return .ok ()

/-- Prints the manifest that a build would write. -/
def render (locales : Time.Locales) (o : Options) (log : Log) : m (Except Failure Unit) := do
  match ← loadValid locales o log with
  | .error e => return .error (.build e)
  | .ok (_, config, plan) =>
    match ← Metadata.load config.metadataPath with
    | .error failure => return .error (.build (.ofMetadata failure))
    | .ok document =>
      let version ← Build.environmentVersion config
      match version with
      | some v => log.debug ("Rendering with version override " ++ v)
      | none => pure ()
      Host.print (Manifest.render (document.withVersion version) plan.sections)
      return .ok ()

def confirmOverwrite (name : String) : m (Except Failure Bool) := do
  Host.print ("? File '" ++ name ++ "' already exists. Overwrite? [y/n] › ")
  match ← Host.readLine with
  | .error _ => return .error .noInput
  | .ok line =>
    let answer := (Text.trimChars line.toList).map Char.toLower
    return .ok (answer == ['y'] || answer == ['y', 'e', 's'])

/-- What is printed once there is a new configuration. -/
def nextSteps (name : String) : String :=
  Text.join "\n"
    ["", "✔  Configuration file created successfully!", "", "Next steps:",
      "  1. Edit " ++ name ++ " to describe your resource", "  2. Validate it: fxpack check",
      "  3. Preview the manifest: fxpack render", "  4. Build: fxpack build"]

def writeStarter (path : Path) (log : Log) : m (Except Failure Unit) := do
  match ← FileSystem.createParent path with
  | .error (parent, _) => return .error (.noDirectory parent)
  | .ok () =>
    match ← FileSystem.write path starter with
    | .error _ => return .error (.noConfigurationFile path)
    | .ok () =>
      log.success ("Created configuration file: " ++ path.text)
      Host.printLine (nextSteps path.text)
      return .ok ()

/-- Makes a new configuration; a file that is there is overwritten only if that is confirmed. -/
def init (file : Option String) (force : Bool) (log : Log) : m (Except Failure Unit) := do
  log.debug "Handling init command"
  let path : Path := (file.map Files.Path.mk).getD Config.defaultPath
  log.debug ("Target file: " ++ path.text)
  if !force && (← FileSystem.isThere path) then
    match ← confirmOverwrite path.text with
    | .error failure => return .error failure
    | .ok true => writeStarter path log
    | .ok false =>
      log.info "Operation cancelled by user"
      Host.printLine "Operation cancelled."
      return .ok ()
  else
    writeStarter path log

def perform (locales : Time.Locales) (c : Command) (o : Options) (log : Log) :
    m (Except Failure Unit) :=
  match c with
  | .build skipBundle => build locales skipBundle o log
  | .check => check locales o log
  | .render => render locales o log
  | .init file force => init file force log
  | .releaseCheck repository current delay => do
    releaseCheck repository current delay o log
    return .ok ()

def versionText : String := "fxpack 0.1.0"

def usage : String :=
  "Usage: fxpack [--quiet] [--verbose] [--config PATH] <build|check|render|init|release-check>"

/-- Carries out a command line; gives the exit code. -/
def run (locales : Time.Locales) (arguments : List String) : m Nat := do
  match parse arguments with
  | .error .version => Host.printLine versionText; return 0
  | .error .help => Host.printLine usage; return 0
  | .error .misused => Host.complainLine usage; return 2
  | .ok (options, command) =>
    let (log, failure) ← Log.start {} options.level
    match failure with
    | some failure =>
      Host.complainLine ("Warning: Failed to initialize logger: " ++ failure.message)
    | none => pure ()
    match ← perform locales command options log with
    | .ok () => return 0
    | .error failure =>
      log.error failure.message
      log.showFile
      return 1

end ResourceBuild.CommandLine
