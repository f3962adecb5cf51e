import ResourceBuild.Files.Tree
import ResourceBuild.Host.Basic

/-!
# A machine as a value

A host whose files, variables and streams are a value, on which a program runs without touching
anything else. Its clock stands still.
-/

namespace ResourceBuild

open Files (Path Cause Place Tree Node)

structure Machine where
  tree : Tree := {}
  /-- The directory that relative paths start from. -/
  here : Place := []
  environment : List (String × String) := []
  now : Time.Instant := ⟨0, 0⟩
  /-- What can still be read from the standard input. -/
  input : String := ""
  output : String := ""
  complaints : String := ""
  /-- What the release feed answers at an address, at once. -/
  feed : String → Release.Answer := fun _ => .unreachable
  /-- The seconds after which an interrupt comes, if one does. -/
  interrupt : Option Nat := none

namespace Machine

/--
The value of a variable. It is what follows the name and an equals sign in a text `name=value`, so a
name with an equals sign in it reaches into the value of a variable.
-/
def valueOf? (name : String) (environment : List (String × String)) : Option String :=
  environment.findSome? fun e => Text.dropStart? (name ++ "=") (e.1 ++ "=" ++ e.2)

/-- Changes the files, unless that fails. -/
def change (f : Tree → Place → Except Cause Tree) : StateM Machine (Except Cause Unit) :=
  fun w =>
    match f w.tree w.here with
    | .ok t => (.ok (), { w with tree := t })
    | .error cause => (.error cause, w)

/-- The first line of a text with its end, and what follows. -/
def cutLine (s : String) : String × String :=
  let cs := s.toList
  let line := cs.takeWhile (· != '\n')
  match cs.drop line.length with
  | [] => (s, "")
  | c :: rest => (String.ofList (line ++ [c]), String.ofList rest)

/-- Where a program notes the arguments it was run with. -/
def argumentsPlace (place : Place) : Place :=
  place.dropLast ++ [place.getLast?.getD "" ++ ".args"]

def argumentLines (arguments : List String) : String :=
  String.join (arguments.map (· ++ "\n"))

/-- Runs the program at a path, which notes its arguments beside itself. -/
def runProgram (p : Path) (arguments : List String) : StateM Machine (Except Cause Program.Ended) :=
  fun w =>
    if (p.text :: arguments).any fun a => '\x00' ∈ a.toList then
      (.error (.other "nul byte found in provided data"), w)
    else
      match w.tree.program w.here p with
      | .error cause => (.error cause, w)
      | .ok (place, program) =>
        (.ok program.ended, { w with
          tree := w.tree.put (argumentsPlace place)
            (.file (argumentLines arguments).toUTF8 none) })

instance : Host (StateM Machine) where
  read p := fun w => (w.tree.read w.here p, w)
  create p := change fun t here => t.create here p
  fill p s := change fun t here => t.fill here p s
  append p s := change fun t here => t.append here p s
  rename p q := change fun t here => t.rename here p q
  remove p := change fun t here => t.remove here p
  isThere p := fun w => ((w.tree.find w.here p).toOption.isSome, w)
  createDirectories p := change fun t here => t.createDirectories here p
  environment? name := fun w => (valueOf? name w.environment, w)
  now := fun w => (w.now, w)
  ticks := pure 0
  sleep seconds := fun w => (w.interrupt.all fun limit => seconds ≤ limit, w)
  print s := fun w => ((), { w with output := w.output ++ s })
  complain s := fun w => ((), { w with complaints := w.complaints ++ s })
  readLine := fun w =>
    let (line, rest) := cutLine w.input
    (.ok line, { w with input := rest })
  isProgram p := fun w => ((w.tree.program w.here p).toOption.isSome, w)
  run := runProgram
  fetch url := fun w => (some (w.feed url), w)

end Machine

end ResourceBuild
