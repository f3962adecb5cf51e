import ResourceBuild.Files.System
import ResourceBuild.Program
import ResourceBuild.Release.Check
import ResourceBuild.Time.Calendar

/-!
# The host

What the program needs of the machine it runs on, apart from its files.
-/

namespace ResourceBuild

open Files (Path Cause FileSystem)

/-- A machine, as programs in `m` can use it. -/
class Host (m : Type → Type) extends FileSystem m where
  /-- The value of an environment variable. -/
  environment? : String → m (Option String)
  /-- The time of day. -/
  now : m Time.Instant
  /-- The nanoseconds since some fixed point in time. -/
  ticks : m Nat
  /-- Lets some seconds pass; whether they are over before an interrupt comes. -/
  sleep : Nat → m Bool
  /-- Writes to the standard output. -/
  print : String → m Unit
  /-- Writes to the standard error output. -/
  complain : String → m Unit
  /-- Reads a line of the standard input; there is nothing in it once the input has ended. -/
  readLine : m (Except Cause String)
  /-- Whether a path is that of a program that can be run. -/
  isProgram : Path → m Bool
  /-- Runs a program with some arguments to its end. -/
  run : Path → List String → m (Except Cause Program.Ended)
  /-- Asks the address of a release feed, unless an interrupt comes before the answer. -/
  fetch : String → m (Option Release.Answer)

namespace Host

variable {m : Type → Type} [Monad m] [Host m]

def printLine (s : String) : m Unit :=
  print (s ++ "\n")

def complainLine (s : String) : m Unit :=
  complain (s ++ "\n")

end Host

end ResourceBuild
