import ResourceBuild.Files.Fault

/-!
# File systems

What the program needs of the files of a machine. Each operation takes effect in one step, or fails
with a cause.
-/

namespace ResourceBuild.Files

/-- Files, as programs in `m` can use them. -/
class FileSystem (m : Type → Type) where
  /-- The bytes of a file. -/
  read : Path → m (Except Cause ByteArray)
  /-- Makes an empty file, in place of the file that may be there. -/
  create : Path → m (Except Cause Unit)
  /-- Writes a text into a file that was just made. -/
  fill : Path → String → m (Except Cause Unit)
  /-- Writes a text at the end of a file, which is made if it is not there. -/
  append : Path → String → m (Except Cause Unit)
  /-- Moves a file, in place of the file that may be there. -/
  rename : Path → Path → m (Except Cause Unit)
  /-- Removes a file. -/
  remove : Path → m (Except Cause Unit)
  /-- Whether there is anything at a path. -/
  isThere : Path → m Bool
  /-- Makes a directory and those above it, as far as they are not there. -/
  createDirectories : Path → m (Except Cause Unit)

namespace FileSystem

variable {m : Type → Type} [Monad m] [FileSystem m]

def readText (p : Path) : m (Except Cause String) := do
  match ← read p with
  | .error cause => return .error cause
  | .ok bytes =>
    match String.fromUTF8? bytes with
    | some s => return .ok s
    | none => return .error .notText

def write (p : Path) (s : String) : m (Except Cause Unit) := do
  match ← create p with
  | .error cause => return .error cause
  | .ok () => fill p s

/-- Makes the directory of a path, which is told when that fails; a bare file name needs none. -/
def createParent (p : Path) : m (Except (Path × Cause) Unit) := do
  match p.parent? with
  | none => return .ok ()
  | some parent =>
    if parent.isEmpty then return .ok ()
    else
      match ← createDirectories parent with
      | .ok () => return .ok ()
      | .error cause => return .error (parent, cause)

/-- Makes a file with a text, and the directories it lies in. -/
def writeUnder (directoryAction fileAction : Action) (p : Path) (s : String) :
    m (Except Fault Unit) := do
  match ← createParent p with
  | .error (parent, cause) => return .error ⟨directoryAction, parent, cause⟩
  | .ok () =>
    match ← write p s with
    | .ok () => return .ok ()
    | .error cause => return .error ⟨fileAction, p, cause⟩

end FileSystem

end ResourceBuild.Files
