import ResourceBuild.Files.Path

/-!
# File faults

Why an operation on a file fails, and what was being done at the time.
-/

namespace ResourceBuild.Files

/-- Why the machine refuses an operation on a file. -/
inductive Cause where
  | notFound
  | permissionDenied
  | busy
  | alreadyExists
  | notADirectory
  | isADirectory
  | nameTooLong
  | notText
  | nulInName
  | other (description : String)
  deriving DecidableEq

def Cause.message : Cause → String
  | .notFound => "No such file or directory (os error 2)"
  | .permissionDenied => "Permission denied (os error 13)"
  | .busy => "Device or resource busy (os error 16)"
  | .alreadyExists => "File exists (os error 17)"
  | .notADirectory => "Not a directory (os error 20)"
  | .isADirectory => "Is a directory (os error 21)"
  | .nameTooLong => "File name too long (os error 36)"
  | .notText => "stream did not contain valid UTF-8"
  | .nulInName => "file name contained an unexpected NUL byte"
  | .other description => description

inductive Action where
  | readMetadata
  | createTemporary
  | writeMetadata
  | replaceMetadata
  | readConfiguration
  | createStampDirectory
  | writeStamp
  | createManifestDirectory
  | writeManifest
  deriving DecidableEq

def Action.words : Action → String
  | .readMetadata => "read metadata"
  | .createTemporary => "create temporary metadata file"
  | .writeMetadata => "write metadata"
  | .replaceMetadata => "replace metadata"
  | .readConfiguration => "read build configuration"
  | .createStampDirectory => "create timestamp directory"
  | .writeStamp => "write timestamp"
  | .createManifestDirectory => "create manifest directory"
  | .writeManifest => "write manifest"

/-- An action that failed. -/
structure Fault where
  action : Action
  path : Path
  cause : Cause
  deriving DecidableEq

def Fault.message (f : Fault) : String :=
  "Failed to " ++ f.action.words ++ " '" ++ f.path.text ++ "': " ++ f.cause.message

end ResourceBuild.Files
