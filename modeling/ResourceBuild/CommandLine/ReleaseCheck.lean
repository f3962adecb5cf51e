import ResourceBuild.Build.Load
import ResourceBuild.CommandLine.Arguments
import ResourceBuild.Log.Basic
import ResourceBuild.Release.Monitor

/-!
# The command that checks for a newer release

What is not given on the command line is taken from the configuration. Whatever goes wrong is told
and is no reason for the command to fail, and an interrupt calls the check off.
-/

namespace ResourceBuild.CommandLine

open Files (Path FileSystem)
open Release (Monitor Outcome)

structure ReleaseQuery where
  repository : String
  current : String
  /-- The seconds to wait. -/
  delay : Nat
  deriving DecidableEq

/-- Why there is nothing to check. -/
inductive Unresolved where
  | noRepository
  | noCurrentVersion
  | metadata (failure : Metadata.Failure)
  | noVersion
  deriving DecidableEq

def Unresolved.message : Unresolved → String
  | .noRepository => "no repository given (use --repository or [release].repository)"
  | .noCurrentVersion => "no current version given and no configuration found"
  | .metadata failure => failure.message
  | .noVersion => "metadata document has no 'version'"

variable {m : Type → Type} [Monad m] [Host m]

def Options.configPath (o : Options) : m Path := do
  return Config.choosePath o.config (← Host.environment? Config.pathVariable)

def Options.loadConfig (o : Options) : m (Except Build.Error Config) := do
  Build.load (← o.configPath)

def configIfAny (o : Options) (log : Log) : m (Option Config) := do
  match ← o.loadConfig with
  | .ok c => return some c
  | .error e =>
    log.debug ("No build configuration available: " ++ e.message)
    return none

def metadataVersion (c : Config) : m (Except Unresolved String) := do
  match ← Metadata.load c.metadataPath with
  | .error failure => return .error (.metadata failure)
  | .ok d =>
    match d.version? with
    | some version => return .ok version
    | none => return .error .noVersion

/-- The version in use: the one given, or else that of the metadata. -/
def currentVersion (current : Option String) (config : Option Config) :
    m (Except Unresolved String) := do
  match current, config with
  | some version, _ => return .ok version
  | none, none => return .error .noCurrentVersion
  | none, some c => metadataVersion c

/-- The repository to check: the one given, or else the configured one; a blank one is none. -/
def repository? (given : Option String) (release : Option Config.ReleaseSettings) :
    Option String :=
  match given.or (release.map Config.ReleaseSettings.repository) with
  | some repository => if Text.isBlankText repository then none else some repository
  | none => none

/-- The seconds to wait: those given, or the configured ones, or five. -/
def delayOf (given : Option Nat) (release : Option Config.ReleaseSettings) : Nat :=
  (given.or (release.map Config.ReleaseSettings.delay)).getD 5

/-- What a check needs to know, once the configuration has been looked for. -/
def resolveWith (repository current : Option String) (delay : Option Nat)
    (config : Option Config) : m (Except Unresolved ReleaseQuery) := do
  let release := config.bind Config.release
  match repository? repository release with
  | none => return .error .noRepository
  | some repository =>
    match ← currentVersion current config with
    | .error reason => return .error reason
    | .ok current => return .ok ⟨repository, current, delayOf delay release⟩

/-- What a check needs to know. The configuration is read only if something is not given. -/
def resolve (repository current : Option String) (delay : Option Nat) (o : Options) (log : Log) :
    m (Except Unresolved ReleaseQuery) :=
  if repository.isSome && current.isSome && delay.isSome then
    resolveWith repository current delay none
  else do
    resolveWith repository current delay (← configIfAny o log)

def noteOutcome (log : Log) : Outcome → m Unit
  | .updateAvailable current latest url =>
    log.warn ("A new fxpack release is available: " ++ current.text ++ " -> " ++ latest.text ++
      " (" ++ url ++ ")")
  | .upToDate current => log.info ("fxpack " ++ current.text ++ " is up to date")
  | .skipped reason => log.debug ("Release check skipped: " ++ reason.words)

/-- Tells in the log how a check has ended; gives what it has found. -/
def noteEnd (q : ReleaseQuery) (log : Log) :
    Except Release.Failure Outcome → m (Option Outcome)
  | .error failure => do
    log.warn ("Release check failed: " ++ failure.message q.repository)
    return none
  | .ok outcome => do
    noteOutcome log outcome
    return some outcome

/-- Starts a check, which asks the feed once the delay is over; an interrupt calls it off. -/
def watch (q : ReleaseQuery) (log : Log) : m Monitor := do
  log.debug ("Checking " ++ q.repository ++ " for releases newer than " ++ q.current ++ " in " ++
    Text.decimal q.delay ++ "s")
  if ← Host.sleep q.delay then
    match ← Host.fetch (Release.requestAddress q.repository) with
    | some answer =>
      let found ← noteEnd q log (Release.judge q.current answer)
      return Monitor.started.finish found
    | none => return Monitor.started.cancel
  else
    return Monitor.started.cancel

def outcomeText : Outcome → String
  | .updateAvailable current latest url =>
    "Update available: " ++ current.text ++ " -> " ++ latest.text ++ "\n" ++
      if url.isEmpty then "" else "  " ++ url ++ "\n"
  | .upToDate current => "✔ " ++ current.text ++ " is the latest release\n"
  | .skipped reason => "Release check skipped: " ++ reason.words ++ "\n"

/-- Checks for a newer release and tells what was found. -/
def releaseCheck (repository current : Option String) (delay : Option Nat) (o : Options)
    (log : Log) : m Unit := do
  match ← resolve repository current delay o log with
  | .error reason => log.warn ("Release check skipped: " ++ reason.message)
  | .ok query =>
    let monitor ← watch query log
    if monitor.isCancelled then log.info "Release check cancelled"
    else
      match monitor.wait.2 with
      | some outcome => Host.print (outcomeText outcome)
      | none => pure ()

end ResourceBuild.CommandLine
