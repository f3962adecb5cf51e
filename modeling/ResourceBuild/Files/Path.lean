import ResourceBuild.Text.Pieces

/-!
# Paths

Paths as they are written, with `/` between their parts. Empty parts and parts that are a single
dot say nothing, except for a dot that starts a relative path.
-/

namespace ResourceBuild.Files

/-- A path as it is written. -/
structure Path where
  text : String
  deriving DecidableEq

namespace Path

def isEmpty (p : Path) : Bool :=
  p.text.isEmpty

def isAbsolute (p : Path) : Bool :=
  p.text.toList.head? == some '/'

/-- Whether a part of a path names nothing. -/
def isTrivial (part : String) : Bool :=
  part == "" || part == "."

/-- The start of a path that is no ordinary part: a root, a leading dot, or nothing. -/
inductive Start where
  | root
  | dot
  | plain
  deriving DecidableEq

def Start.text : Start → String
  | .root => "/"
  | .dot => "."
  | .plain => ""

/-- The start of a path, and the parts behind it just as they are written. -/
def split (p : Path) : Start × List String :=
  match p.text.toList with
  | '/' :: r => (.root, Text.cut '/' (String.ofList r))
  | ['.'] => (.dot, [""])
  | '.' :: '/' :: r => (.dot, Text.cut '/' (String.ofList ('/' :: r)))
  | _ => (.plain, Text.cut '/' p.text)

/-- Leaves out the parts at the end that name nothing. -/
def dropTrivialEnd (parts : List String) : List String :=
  (parts.reverse.dropWhile isTrivial).reverse

/-- The path with this start and these parts. -/
def ofParts (start : Start) (parts : List String) : Path :=
  ⟨start.text ++ Text.join "/" parts⟩

def depth (p : Path) : Nat :=
  let (start, parts) := p.split
  (parts.filter (!isTrivial ·)).length + (if start = .plain then 0 else 1)

/-- The path without its last part; the root and the empty path have none. -/
def parent? (p : Path) : Option Path :=
  let (start, parts) := p.split
  let kept := dropTrivialEnd parts
  if kept.isEmpty then
    if start = .dot then some ⟨""⟩ else none
  else
    some (ofParts start (dropTrivialEnd kept.dropLast))

/-- The last part, unless it leads upwards or there is none. -/
def fileName? (p : Path) : Option String :=
  match (dropTrivialEnd p.split.2).getLast? with
  | some name => if name == ".." then none else some name
  | none => none

/--
A file name cut at its last dot. A name that has no dot, or only one in front, has no extension.
-/
def splitName (name : String) : String × Option String :=
  let cs := name.toList.reverse
  let ext := cs.takeWhile (· != '.')
  match cs.drop ext.length with
  | [] => (name, none)
  | ['.'] => (name, none)
  | _ :: stem => (String.ofList stem.reverse, some (String.ofList ext.reverse))

/-- The path with the extension of its file name replaced; without a file name nothing changes. -/
def withExtension (p : Path) (extension : String) : Path :=
  match p.fileName? with
  | none => p
  | some name =>
    -- the text loses as many characters as the old extension has, even behind a slash at its end
    let old := ((splitName name).2.getD "").length
    let cut : Path := ⟨String.ofList (p.text.toList.take (p.text.length - old))⟩
    let (start, parts) := cut.split
    let kept := dropTrivialEnd parts
    match kept.getLast? with
    | some last => if last == ".." then cut else
        ofParts start (kept.dropLast ++ [(splitName last).1 ++ "." ++ extension])
    | none => cut

/-- `q` seen from `p`: an absolute path stays, another one follows behind a single slash. -/
def join (p q : Path) : Path :=
  if q.isAbsolute then q
  else if p.isEmpty || p.text.toList.getLast? == some '/' then ⟨p.text ++ q.text⟩
  else ⟨p.text ++ "/" ++ q.text⟩

end Path

end ResourceBuild.Files
