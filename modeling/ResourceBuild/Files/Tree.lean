import ResourceBuild.Files.Fault
import ResourceBuild.Program

/-!
# Trees of files

The files of a machine as a value: what stands at each place, and what the operations on files make
of it.
-/

namespace ResourceBuild.Files

/-- A place in a tree: the names on the way to it from the root. -/
abbrev Place := List String

/-- What stands at a place: a directory, or a file, which may be a program that can be run. -/
inductive Node where
  | directory
  | file (content : ByteArray) (program : Option Program)

/-- The files and directories of a machine. The root is always there. -/
structure Tree where
  entries : List (Place × Node) := []

namespace Tree

def node? (t : Tree) (place : Place) : Option Node :=
  if place.isEmpty then some .directory else t.entries.lookup place

def put (place : Place) (n : Node) (t : Tree) : Tree :=
  ⟨(t.entries.filter fun e => e.1 != place) ++ [(place, n)]⟩

def erase (place : Place) (t : Tree) : Tree :=
  ⟨t.entries.filter fun e => e.1 != place⟩

/-- No entry is left at a place that was cleared. -/
theorem lookup_cleared (place : Place) (es : List (Place × Node)) :
    (es.filter fun e => e.1 != place).lookup place = none := by
  simp only [List.lookup_eq_none_iff, List.mem_filter]
  intro e he
  simpa [bne, BEq.comm] using he.2

/-- Clearing a place leaves the entries of the others. -/
theorem lookup_cleared_of_ne {place other : Place} (h : other ≠ place)
    (es : List (Place × Node)) :
    (es.filter fun e => e.1 != place).lookup other = es.lookup other := by
  induction es with
  | nil => rfl
  | cons e es ih =>
    obtain ⟨k, n⟩ := e
    by_cases hk : k = place
    · simp [hk, List.lookup_cons, beq_false_of_ne h, ih]
    · simp [hk, List.lookup_cons, ih]

/-- What was put at a place is there. -/
@[simp] theorem node?_put_self {place : Place} (h : place ≠ []) (n : Node) (t : Tree) :
    (t.put place n).node? place = some n := by
  simp [node?, put, h, List.lookup_append, lookup_cleared]

/-- Putting something at a place changes no other place. -/
theorem node?_put_of_ne {place other : Place} (h : other ≠ place) (n : Node) (t : Tree) :
    (t.put place n).node? other = t.node? other := by
  simp [node?, put, List.lookup_append, List.lookup_cons, lookup_cleared_of_ne h,
    beq_false_of_ne h]

/-- A place that was left empty holds nothing. -/
@[simp] theorem node?_erase_self {place : Place} (h : place ≠ []) (t : Tree) :
    (t.erase place).node? place = none := by
  simp [node?, erase, h, lookup_cleared]

/-- Leaving a place empty changes no other place. -/
theorem node?_erase_of_ne {place other : Place} (h : other ≠ place) (t : Tree) :
    (t.erase place).node? other = t.node? other := by
  simp [node?, erase, lookup_cleared_of_ne h]

def maxName : Nat := 255

/-- Where some names lead from a place. Each step needs a directory, the last name may be new. -/
def walk (t : Tree) : Place → List String → Except Cause Place
  | here, [] => .ok here
  | here, name :: names =>
    match t.node? here with
    | none => .error .notFound
    | some (.file _ _) => .error .notADirectory
    | some .directory =>
      if name = "." then t.walk here names
      else if name = ".." then t.walk here.dropLast names
      else if maxName < name.utf8ByteSize then .error .nameTooLong
      else t.walk (here ++ [name]) names

end Tree

namespace Path

/-- The place at which a path starts, seen from a directory. -/
def startFrom (here : Place) (p : Path) : Place :=
  if p.isAbsolute then [] else here

/-- The names in a path, with those that lead nowhere. -/
def steps (p : Path) : List String :=
  (Text.cut '/' p.text).filter (· != "")

/-- Whether the last step of a path goes to a name, and not upwards or nowhere. -/
def endsInName (p : Path) : Bool :=
  match p.steps.getLast? with
  | none => false
  | some step => step != "." && step != ".."

/-- Whether a path can only be that of a directory. -/
def needsDirectory (p : Path) : Bool :=
  p.text.toList.getLast? == some '/' || !p.endsInName

/-- The steps of a path to the directory that the name at its end stands in. -/
def stepsToDirectory (p : Path) : List String :=
  if p.endsInName then p.steps.dropLast else p.steps

def maxLength : Nat := 4095

/-- Refuses a path that is not looked at any further. -/
def check (p : Path) : Except Cause Unit :=
  if p.isEmpty then .error .notFound
  else if '\x00' ∈ p.text.toList then .error .nulInName
  else if maxLength < p.text.utf8ByteSize then .error .nameTooLong
  else .ok ()

end Path

namespace Tree

/-- Where a path leads, seen from a directory. -/
def follow (t : Tree) (here : Place) (p : Path) : Except Cause Place := do
  p.check
  t.walk (p.startFrom here) p.steps

/-- What a path leads to, and where. -/
def find (t : Tree) (here : Place) (p : Path) : Except Cause (Place × Node) := do
  let place ← t.follow here p
  match t.node? place with
  | none => .error .notFound
  | some .directory => .ok (place, .directory)
  | some n => if p.needsDirectory then .error .notADirectory else .ok (place, n)

def read (t : Tree) (here : Place) (p : Path) : Except Cause ByteArray := do
  match ← t.find here p with
  | (_, .file content _) => .ok content
  | (_, .directory) => .error .isADirectory

/--
The place of a file that is to be written, and what is there. A path that can only be that of a
directory is refused before the name at its end is looked up.
-/
def target (t : Tree) (here : Place) (p : Path) : Except Cause (Place × Option Node) := do
  p.check
  if p.needsDirectory then
    let _ ← t.walk (p.startFrom here) (p.stepsToDirectory ++ ["."])
    .error .isADirectory
  else
    let place ← t.walk (p.startFrom here) p.steps
    match t.node? place with
    | some .directory => .error .isADirectory
    | n => .ok (place, n)

def create (t : Tree) (here : Place) (p : Path) : Except Cause Tree := do
  let (place, _) ← t.target here p
  return t.put place (.file .empty none)

def fill (t : Tree) (here : Place) (p : Path) (s : String) : Except Cause Tree := do
  let (place, _) ← t.target here p
  return t.put place (.file s.toUTF8 none)

def append (t : Tree) (here : Place) (p : Path) (s : String) : Except Cause Tree := do
  match ← t.target here p with
  | (place, some (.file content program)) =>
    return t.put place (.file (content ++ s.toUTF8) program)
  | (place, _) => return t.put place (.file s.toUTF8 none)

/-- Moves a file. Its new path has to end in a name, with no slash behind it. -/
def rename (t : Tree) (here : Place) (p q : Path) : Except Cause Tree := do
  let (source, n) ← t.find here p
  let goal ← t.follow here q
  if !q.endsInName then .error .busy
  else if q.needsDirectory then .error .notADirectory
  else
    match t.node? goal with
    | some .directory => .error .isADirectory
    | _ => return (t.erase source).put goal n

def remove (t : Tree) (here : Place) (p : Path) : Except Cause Tree := do
  match ← t.find here p with
  | (place, .file _ _) => return t.erase place
  | (_, .directory) => .error .isADirectory

def createDirectory (t : Tree) (here : Place) (p : Path) : Except Cause Tree := do
  let place ← t.follow here p
  match t.node? place with
  | some _ => .error .alreadyExists
  | none => return t.put place .directory

def isDirectory (t : Tree) (here : Place) (p : Path) : Bool :=
  match t.find here p with
  | .ok (_, .directory) => true
  | _ => false

/-- Makes a directory that may be there already. -/
def ensureDirectory (t : Tree) (here : Place) (p : Path) : Except Cause Tree :=
  match t.createDirectory here p with
  | .ok t => .ok t
  | .error cause => if t.isDirectory here p then .ok t else .error cause

/-- Makes a directory and those above it, of which there are no more than `fuel`. -/
def createUpwards (t : Tree) (here : Place) : Nat → Path → Except Cause Tree
  | 0, _ => .ok t
  | fuel + 1, p =>
    if p.isEmpty then .ok t
    else
      match t.ensureDirectory here p with
      | .error .notFound => do
        let t ← t.createUpwards here fuel (p.parent?.getD ⟨""⟩)
        t.ensureDirectory here p
      | result => result

/-- Makes a directory and those above it. -/
def createDirectories (t : Tree) (here : Place) (p : Path) : Except Cause Tree :=
  t.createUpwards here (p.text.length + 1) p

/-- The program at a path, if there is one that can be run. -/
def program (t : Tree) (here : Place) (p : Path) : Except Cause (Place × Program) := do
  match ← t.find here p with
  | (place, .file _ (some program)) => .ok (place, program)
  | _ => .error .permissionDenied

end Tree

end ResourceBuild.Files
