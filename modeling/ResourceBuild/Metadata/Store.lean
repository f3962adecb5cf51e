import ResourceBuild.Files.System
import ResourceBuild.Metadata.Document

/-!
# The metadata file

The metadata is read from its file and written back to it. A file is replaced in one step, so that
it never holds a part of a document.
-/

namespace ResourceBuild.Metadata

open Files (Path Fault Action FileSystem)

inductive Failure where
  | file (fault : Fault)
  | invalid (reason : Invalid)
  deriving DecidableEq

def Failure.message : Failure → String
  | .file fault => fault.message
  | .invalid reason => reason.message

variable {m : Type → Type} [Monad m] [FileSystem m]

def load (p : Path) : m (Except Failure Metadata) := do
  match ← FileSystem.readText p with
  | .error cause => return .error (.file ⟨.readMetadata, p, cause⟩)
  | .ok s => return (parse s).mapError Failure.invalid

/-- The file that is written before it takes the place of another one. -/
def temporaryPath (p : Path) : Path :=
  p.withExtension "json.tmp"

/-- Writes a text into the temporary file and lets it take the place of a file. -/
def replace (temporary p : Path) (s : String) : m (Except Fault Unit) := do
  match ← FileSystem.create temporary with
  | .error cause => return .error ⟨.createTemporary, temporary, cause⟩
  | .ok () =>
    match ← FileSystem.fill temporary s with
    | .error cause => return .error ⟨.writeMetadata, temporary, cause⟩
    | .ok () =>
      match ← FileSystem.rename temporary p with
      | .error cause => return .error ⟨.replaceMetadata, p, cause⟩
      | .ok () => return .ok ()

def clear (temporary : Path) : m Unit := do
  if ← FileSystem.isThere temporary then
    discard (FileSystem.remove temporary)

/-- Writes a document to a file. When that fails, the temporary file is removed again. -/
def save (d : Metadata) (p : Path) (width : Nat) : m (Except Failure Unit) := do
  match ← replace (temporaryPath p) p (d.render width) with
  | .ok () => return .ok ()
  | .error fault =>
    clear (temporaryPath p)
    return .error (.file fault)

/-- Reads the document in a file, gives it a version if there is one, and writes it back. -/
def sync (p : Path) (version : Option String) (width : Nat) : m (Except Failure Metadata) := do
  match ← load p with
  | .error failure => return .error failure
  | .ok d =>
    let d := d.withVersion version
    match ← d.save p width with
    | .error failure => return .error failure
    | .ok () => return .ok d

end ResourceBuild.Metadata
