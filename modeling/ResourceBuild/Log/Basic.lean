import ResourceBuild.Host.Basic
import ResourceBuild.Text.Lossy
import ResourceBuild.Time.Format

/-!
# The log

What a run does is told in a log file, and in part on the standard error output. A log that cannot
be written is no reason to stop.
-/

namespace ResourceBuild

open Files (Path Cause FileSystem)

/-- Where and how a run is told of. -/
structure Log where
  /-- How much is told on the standard error output. -/
  verbosity : Nat := 0
  /-- The stage of the build that is going on. -/
  stage : Option String := none
  /-- The log file, once there is one. -/
  file : Option Path := none
  deriving DecidableEq

namespace Log

variable {m : Type → Type} [Monad m] [Host m]

def fileName : Path := ⟨"fxpack.log"⟩

/-- The environment variable that names the directory of the log. -/
def directoryVariable : String := "FXPACK_LOG_DIR"

inductive Failure where
  | noHome
  | noDirectory (cause : Cause)
  deriving DecidableEq

def Failure.message : Failure → String
  | .noHome => "Could not determine home directory"
  | .noDirectory cause => "Failed to create log directory: " ++ cause.message

/-- The directory of the log, from the values of the variables for it and for the home directory. -/
def chooseDirectory (named home : Option String) : Except Failure Path :=
  match Text.nonBlank? named, named, home with
  | some _, some directory, _ => .ok ⟨directory⟩
  | _, _, some home =>
    if home.isEmpty then .error .noHome
    else .ok ((Files.Path.mk home).join ⟨".config"⟩ |>.join ⟨"fxpack"⟩)
  | _, _, none => .error .noHome

def directory : m (Except Failure Path) := do
  let named ← Host.environment? directoryVariable
  let home ← Host.environment? "HOME"
  return chooseDirectory named home

/-- Starts a log with an empty file; without a directory for it the old file stays in use. -/
def start (log : Log) (verbosity : Nat) : m (Log × Option Failure) := do
  let log := { log with verbosity := verbosity }
  match ← directory with
  | .error failure => return (log, some failure)
  | .ok directory =>
    match ← FileSystem.createDirectories directory with
    | .error cause => return (log, some (.noDirectory cause))
    | .ok () =>
      let file := directory.join fileName
      if ← FileSystem.isThere file then
        discard (FileSystem.remove file)
      return ({ log with file := some file }, none)

/-- The time in front of a line of the log. -/
def timeText (now : Time.Instant) : String :=
  (Time.write? Time.english ⟨now, .machine⟩
    (Time.dashDate ++ .literal ' ' :: Time.clock)).getD ""

def line (log : Log) (now : Time.Instant) (message : String) : String :=
  "[" ++ timeText now ++ "] [" ++ log.stage.getD "fxpack" ++ "] " ++ message ++ "\n"

/-- Writes a message to the log file. -/
def note (log : Log) (message : String) : m Unit := do
  match log.file with
  | none => return ()
  | some file => discard (FileSystem.append file (log.line (← Host.now) message))

def info (log : Log) (message : String) : m Unit := do
  log.note ("INFO " ++ message)
  if 1 ≤ log.verbosity then Host.complainLine message

def debug (log : Log) (message : String) : m Unit := do
  log.note ("DEBUG " ++ message)
  if 1 ≤ log.verbosity then Host.complainLine ("DEBUG: " ++ message)

def warn (log : Log) (message : String) : m Unit := do
  log.note ("WARN " ++ message)
  Host.complainLine ("warning: " ++ message)

def error (log : Log) (message : String) : m Unit := do
  log.note ("ERROR " ++ message)
  Host.complainLine ("Error: " ++ message)

def success (log : Log) (message : String) : m Unit := do
  log.note ("SUCCESS " ++ message)
  Host.complainLine ("✔ " ++ message)

/-- Tells a small step. -/
def step (log : Log) (message : String) : m Unit := do
  if 2 ≤ log.verbosity then Host.complainLine ("TRACE: " ++ message)
  log.note ("STEP: " ++ message)

/-- Tells that something begins which takes its time. -/
def begun (log : Log) (message : String) : m Unit :=
  log.note ("START " ++ message)

/-- Tells that it is done. -/
def done (log : Log) (message : String) : m Unit :=
  log.success message

/-- Tells that it failed. -/
def failed (log : Log) (message : String) : m Unit := do
  log.note ("FAILED " ++ message)
  Host.complainLine ("  ✗ " ++ message)

/-- An exit code that there may be, in words. -/
def codeWords : Option Nat → String
  | some code => "Some(" ++ Text.decimal code ++ ")"
  | none => "None"

/-- Writes to the log what a program left. -/
def capture (log : Log) (name : String) (ended : Program.Ended) : m Unit := do
  log.note ("COMMAND: " ++ name ++ " (exit code: " ++ codeWords ended.status.code? ++ ")")
  unless ended.output.isEmpty do
    log.note ("  STDOUT:\n" ++ Text.lossy ended.output)
  unless ended.complaints.isEmpty do
    log.note ("  STDERR:\n" ++ Text.lossy ended.complaints)

/-- Tells where the log is. -/
def showFile (log : Log) : m Unit := do
  match log.file with
  | some file => Host.complainLine ("Log file: " ++ file.text)
  | none =>
    match ← directory with
    | .ok directory => Host.complainLine ("Log file: " ++ (directory.join fileName).text)
    | .error _ => Host.complainLine "Log file location not available"

end Log

end ResourceBuild
