import ResourceBuild.CommandLine.Run
import ResourceBuild.Main.Locales
import Std.Time.DateTime.Timestamp

/-!
# The program

The machine the program really runs on, as a host. From here no programs are started and no requests
are made: a bundler cannot be launched, and the release feed is out of reach.
-/

namespace ResourceBuild

open Files (Path Cause)

/-- The cause that an error of the machine stands for. -/
def causeOf : IO.Error → Cause
  | .noFileOrDirectory _ _ _ => .notFound
  | .permissionDenied _ _ _ => .permissionDenied
  | .alreadyExists _ _ _ => .alreadyExists
  | .inappropriateType _ 20 _ => .notADirectory
  | .inappropriateType _ 21 _ => .isADirectory
  | e => .other (toString e)

/-- An operation of the machine, with its error as a cause. -/
def attempt {α : Type} (operation : IO α) : IO (Except Cause α) := do
  match ← operation.toBaseIO with
  | .ok a => return .ok a
  | .error e => return .error (causeOf e)

/-- Writes a text to a file that is opened in some way. -/
def writeAs (mode : IO.FS.Mode) (p : Path) (s : String) : IO Unit := do
  let handle ← IO.FS.Handle.mk p.text mode
  handle.putStr s

def timeOfDay : IO Time.Instant := do
  let n := (← Std.Time.Timestamp.now).toNanosecondsSinceUnixEpoch.toInt
  return ⟨n / 1000000000, (n % 1000000000).toNat⟩

def isThere (p : Path) : IO Bool :=
  (System.mkFilePath [p.text]).pathExists

def isFile (p : Path) : IO Bool := do
  match ← attempt (System.mkFilePath [p.text]).metadata with
  | .ok data => return data.type == .file
  | .error _ => return false

instance : Host IO where
  read p := attempt (IO.FS.readBinFile p.text)
  create p := attempt (writeAs .write p "")
  fill p s := attempt (writeAs .write p s)
  append p s := attempt (writeAs .append p s)
  rename p q := attempt (IO.FS.rename p.text q.text)
  remove p := attempt (IO.FS.removeFile p.text)
  isThere := isThere
  createDirectories p := attempt (IO.FS.createDirAll p.text)
  environment? name := IO.getEnv name
  now := timeOfDay
  ticks := IO.monoNanosNow
  sleep seconds := do
    IO.sleep (min (1000 * seconds) 4294967295).toUInt32
    return true
  print s := IO.print s
  complain s := IO.eprint s
  readLine := attempt do (← IO.getStdin).getLine
  isProgram := isFile
  run _ _ := return .error (.other "programs cannot be started from here")
  fetch _ := return some .unreachable

end ResourceBuild

def main (arguments : List String) : IO UInt32 := do
  let code ← ResourceBuild.CommandLine.run (m := IO) ResourceBuild.Time.Locales.common arguments
  return code.toUInt32
