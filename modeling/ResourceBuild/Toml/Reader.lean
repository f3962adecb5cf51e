import ResourceBuild.Toml.Quoted
import ResourceBuild.Toml.Scalar
import ResourceBuild.Toml.Tree

/-!
# Reading TOML

A document is read into its statements, headers and assignments, and these are put together.
-/

namespace ResourceBuild.Toml

open Text

/-- The blanks inside a line. -/
def isSpace (c : Char) : Bool :=
  c == ' ' || c == '\t'

def skipSpace (cs : List Char) : List Char :=
  cs.dropWhile isSpace

/-- Passes over blanks, line ends and comments; `comment` tells whether a comment is open. -/
def skipFiller (comment : Bool) : List Char → Option (List Char)
  | [] => some []
  | '\r' :: '\n' :: r => skipFiller false r
  | c :: r =>
    if c = '\n' then skipFiller false r
    else if comment then
      if isForbidden c then none else skipFiller true r
    else if isSpace c then skipFiller false r
    else if c = '#' then skipFiller true r
    else some (c :: r)

/-- Passes over a comment up to the end of its line. -/
def skipComment : List Char → Option (List Char)
  | [] => some []
  | '\r' :: '\n' :: r => some r
  | c :: r =>
    if c = '\n' then some r
    else if isForbidden c then none
    else skipComment r

/-- What follows a line on which nothing more stands than a comment. -/
def endOfLine (cs : List Char) : Option (List Char) :=
  match skipSpace cs with
  | [] => some []
  | '\n' :: r => some r
  | '\r' :: '\n' :: r => some r
  | '#' :: r => skipComment r
  | _ => none

/-- The characters of keys without quotes. -/
def isBare (c : Char) : Bool :=
  isDigit c || ('a' ≤ c && c ≤ 'z') || ('A' ≤ c && c ≤ 'Z') || c == '-' || c == '_'

def keyPart? (cs : List Char) : Option (String × List Char) :=
  match cs.takeWhile isBare with
  | [] => lineString? cs
  | part => some (String.ofList part, cs.drop part.length)

/--
How deep a document may go: how many arrays and inline tables may lie inside one another, and how
many parts a key may have.
-/
def maxDepth : Nat := 80

/-- The parts of a key, cut at its dots, of which there are no more than `bound`. -/
def keyParts? : (bound : Nat) → List Char → Option (List String × List Char)
  | 0, _ => none
  | bound + 1, cs => do
    let (part, r) ← keyPart? (skipSpace cs)
    match skipSpace r with
    | '.' :: r =>
      let (parts, r) ← keyParts? bound r
      return (part :: parts, r)
    | r => return ([part], r)

def key? (cs : List Char) : Option (List String × List Char) :=
  keyParts? maxDepth cs

/-- What follows the equals sign behind a key. -/
def equals? (cs : List Char) : Option (List Char) :=
  match cs with
  | '=' :: r => some r
  | _ => none

mutual

/-- A value. Each step into or along an array or table takes one of `fuel`. -/
def value? : Nat → Nat → List Char → Option (Toml × List Char)
  | 0, _, _ => none
  | fuel + 1, depth, cs =>
    match cs with
    | [] => none
    | c :: r =>
      if c = '"' ∨ c = '\'' then (string? cs).map fun p => (.text p.1, p.2)
      else if c = '[' then
        if depth = 0 then none
        else do
          let (xs, r) ← items? fuel (depth - 1) (← skipFiller false r)
          return (.array xs, r)
      else if c = '\x7b' then
        if depth = 0 then none
        else do
          let (ms, r) ← members? fuel (depth - 1) [] (← skipFiller false r)
          return (.table (finishMembers ms), r)
      else readScalar? cs

/-- The items of an array up to its closing bracket. -/
def items? : Nat → Nat → List Char → Option (List Toml × List Char)
  | 0, _, _ => none
  | fuel + 1, depth, cs =>
    match cs with
    | ']' :: r => some ([], r)
    | cs => do
      let (x, r) ← value? fuel depth cs
      match ← skipFiller false r with
      | ']' :: r => return ([x], r)
      | ',' :: r =>
        let (xs, r) ← items? fuel depth (← skipFiller false r)
        return (x :: xs, r)
      | _ => none

/-- The members of an inline table up to its closing brace, after those already read. -/
def members? : Nat → Nat → Nodes → List Char → Option (Nodes × List Char)
  | 0, _, _, _ => none
  | fuel + 1, depth, ms, cs =>
    match cs with
    | '\x7d' :: r => some (ms, r)
    | cs => do
      let (path, r) ← key? cs
      -- inside the braces line ends may stand anywhere but between the parts of a key
      let r ← equals? (← skipFiller false r)
      let (v, r) ← value? fuel depth (← skipFiller false r)
      let ms ← assign? v path ms
      match ← skipFiller false r with
      | '\x7d' :: r => return (ms, r)
      | ',' :: r => members? fuel depth ms (← skipFiller false r)
      | _ => none

end

inductive Statement where
  | header (path : List String) (key : String)
  | nextHeader (path : List String) (key : String)
  | assignment (path : List String) (v : Toml)

/-- A statement from its first character on, and what follows its line. -/
def statement? (cs : List Char) : Option (Statement × List Char) :=
  match cs with
  | '[' :: '[' :: r => do
    let (path, r) ← key? r
    match r with
    | ']' :: ']' :: r => return (.nextHeader path.dropLast (← path.getLast?), ← endOfLine r)
    | _ => none
  | '[' :: r => do
    let (path, r) ← key? r
    match r with
    | ']' :: r => return (.header path.dropLast (← path.getLast?), ← endOfLine r)
    | _ => none
  | cs => do
    let (path, r) ← key? cs
    let (v, r) ← value? (2 * cs.length + 2) maxDepth (skipSpace (← equals? r))
    return (.assignment path v, ← endOfLine r)

/-- The statements of a document; `fuel` bounds their number. -/
def statements? : Nat → List Char → Option (List Statement)
  | 0, _ => none
  | fuel + 1, cs => do
    match ← skipFiller false cs with
    | [] => return []
    | cs =>
      let (s, r) ← statement? cs
      return s :: (← statements? fuel r)

/-- Puts statements together; `current` is the path of the table they assign to. -/
def assemble? (current : List String) (ms : Nodes) : List Statement → Option Nodes
  | [] => some ms
  | .header path key :: r => do
    assemble? (path ++ [key]) (← descend? (openTable? key) path ms) r
  | .nextHeader path key :: r => do
    assemble? (path ++ [key]) (← descend? (openNext? key) path ms) r
  | .assignment path v :: r => do
    assemble? current (← descend? (assign? v path) current ms) r

/-- The root table of a document; a byte order mark in front is passed over. -/
def parse? (s : String) : Option Toml := do
  let cs := match s.toList with
    | '\uFEFF' :: r => r
    | cs => cs
  let ms ← assemble? [] [] (← statements? (cs.length + 1) cs)
  return .table (finishMembers ms)

/--
Whether a value is plain TOML, with whole numbers of 64 bits and a sign, and with dates under the
key that is kept for them.
-/
def isPlain (v : Toml) : Bool :=
  v.numbersFit (Decimal.Word.fitsSigned 64) && v.everywhere fun v =>
    match v with
    | .table ((key, .text s) :: _) => key != datetimeKey || (datetime? s.toList).isSome
    | .table ((key, _) :: _) => key != datetimeKey
    | _ => true

end ResourceBuild.Toml
