import ResourceBuild.Build.Error
import ResourceBuild.Config.Version
import ResourceBuild.Host.Basic

/-!
# Loading a configuration

A configuration is read from its file, whose directory its relative paths start from. The version of
the metadata may be replaced by one from the environment.
-/

namespace ResourceBuild.Build

open Files (Path FileSystem)

variable {m : Type → Type} [Monad m]

def load [FileSystem m] (p : Path) : m (Except Error Config) := do
  match ← FileSystem.readText p with
  | .error cause => return .error (.file ⟨.readConfiguration, p, cause⟩)
  | .ok s => return (Config.parse (p.parent?.getD ⟨""⟩) s).mapError Error.unreadable

def loadValid [FileSystem m] (locales : Time.Locales) (p : Path) :
    m (Except Error (Config × Config.Plan)) := do
  match ← load p with
  | .error e => return .error e
  | .ok c =>
    match c.validate locales with
    | .error violations => return .error (.invalid violations)
    | .ok plan => return .ok (c, plan)

/-- The version that the environment has for a configuration. -/
def environmentVersion [Host m] (c : Config) : m (Option String) := do
  match Config.versionKey? c.metadata.versionVariable with
  | none => return none
  | some key =>
    let value ← Host.environment? key
    return value.bind (Config.normalizeVersion c.metadata.versionMark)

end ResourceBuild.Build
