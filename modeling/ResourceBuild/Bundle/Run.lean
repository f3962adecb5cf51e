import ResourceBuild.Build.Error
import ResourceBuild.Bundle.Command
import ResourceBuild.Log.Basic

/-!
# Running the bundler

The bundler is a program of the machine. A name without a directory is looked for in the directories
of the search path.
-/

namespace ResourceBuild.Bundle

open Files (Path)

/-- Bundles what is requested, and tells about it in a log. -/
abbrev Bundler (m : Type → Type) := Log → Request → m (Except Build.Error Unit)

variable {m : Type → Type} [Monad m] [Host m]

def searchVariable : String := "PATH"

/-- The first of some paths that is that of a program. -/
def firstProgram? : List Path → m (Option Path)
  | [] => return none
  | p :: ps => do
    if ← Host.isProgram p then return some p
    firstProgram? ps

/-- The program of a name: a path as it is, any other name from the search path. -/
def findProgram? (name : String) : m (Option Path) := do
  if 1 < (Files.Path.mk name).depth then return some ⟨name⟩
  match ← Host.environment? searchVariable with
  | none => return none
  | some directories =>
    firstProgram? ((Text.cut ':' directories).map fun d => (Files.Path.mk d).join ⟨name⟩)

/-- Runs a program to bundle what is requested. -/
def runProgram (name : String) : Bundler m := fun log request => do
  match ← findProgram? name with
  | none => return .error (.bundlerNotFound name)
  | some program =>
    let arguments := arguments request
    log.debug ("Running: " ++ program.text ++ " " ++ Text.join " " arguments)
    match ← Host.run program arguments with
    | .error cause => return .error (.bundlerNotLaunched name cause)
    | .ok ended =>
      log.capture name ended
      if ended.status.isSuccess then return .ok ()
      else
        return .error (.bundlerFailed name ended.status (Text.trim (Text.lossy ended.complaints)))

end ResourceBuild.Bundle
