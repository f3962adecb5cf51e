import ResourceBuild.Config.Decode
import ResourceBuild.Config.Validation
import ResourceBuild.Metadata.Store
import ResourceBuild.Program

/-!
# Build errors

Why a build does not come to its end.
-/

namespace ResourceBuild.Build

open Files (Cause Fault)

inductive Error where
  | file (fault : Fault)
  | unreadable (reason : Config.Unreadable)
  | invalid (violations : List Config.Violation)
  | metadata (reason : Metadata.Invalid)
  | bundlerNotFound (program : String)
  | bundlerNotLaunched (program : String) (cause : Cause)
  | bundlerFailed (program : String) (status : Program.Status) (complaints : String)
  deriving DecidableEq

/-- The error for metadata that cannot be read or written. -/
def Error.ofMetadata : Metadata.Failure → Error
  | .file fault => .file fault
  | .invalid reason => .metadata reason

/-- Why a text is no configuration, in words. -/
def unreadableWords : Config.Unreadable → String
  | .syntaxError => "the text is not TOML"
  | .schema error => error.message

def Error.message : Error → String
  | .file fault => fault.message
  | .unreadable reason => "Failed to parse build configuration: " ++ unreadableWords reason
  | .invalid violations => Config.report (violations.map Config.Violation.message)
  | .metadata reason => reason.message
  | .bundlerNotFound program => "Bundler '" ++ program ++ "' was not found on PATH"
  | .bundlerNotLaunched program cause =>
    "Failed to launch bundler '" ++ program ++ "': " ++ cause.message
  | .bundlerFailed program status complaints =>
    "Bundler '" ++ program ++ "' exited with " ++ status.words ++ ": " ++ complaints

end ResourceBuild.Build
