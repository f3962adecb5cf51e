import ResourceBuild.Toml.Reader

/-!
# Writing TOML

A table is written as blocks with a blank line between them: a header, and below it the members
that are no tables. The tables inside it follow as blocks of their own.
-/

namespace ResourceBuild.Toml

open Text

/-! ### Texts and keys -/

inductive Quoting where
  | basic
  | literal
  | basicLines
  | literalLines
  deriving DecidableEq

/-- The longest run of a character in a text; `run` is the length of the run just before it. -/
def longestRun (c : Char) (run : Nat) : List Char → Nat
  | [] => run
  | d :: r => if d = c then longestRun c (run + 1) r else max run (longestRun c 0 r)

/-- The control characters that have to be escaped wherever they stand. -/
def isEscaped (c : Char) : Bool :=
  (c.toNat < 0x20 && c != '\t' && c != '\n') || c.toNat == 0x7F

/--
How a text is quoted. What needs no escapes goes between plain quotes; else a form that spares the
escapes is preferred, and several lines stay several lines.
-/
def chooseQuoting (cs : List Char) : Quoting :=
  let escapes := cs.any isEscaped
  let lines := cs.contains '\n'
  let backslash := cs.contains '\\'
  let doubles := longestRun '"' 0 cs
  let singles := longestRun '\'' 0 cs
  if !escapes && !backslash && doubles == 0 && !lines then .basic
  else if !escapes && singles == 0 && !lines then .literal
  else if !escapes && !backslash && doubles ≤ 2 then .basicLines
  else if !escapes && singles ≤ 2 then .literalLines
  else if lines then .basicLines
  else .basic

/-- A character of a quoted text; a line end stays in a text of several lines. -/
def escape (lines : Bool) (c : Char) : List Char :=
  if c = '\n' then (if lines then ['\n'] else ['\\', 'n'])
  else if c = '\t' then ['\\', 't']
  else if c = '\r' then ['\\', 'r']
  else if c = '\x08' then ['\\', 'b']
  else if c = '\x0c' then ['\\', 'f']
  else if c = '\\' then ['\\', '\\']
  else if isEscaped c then
    ['\\', 'u'] ++ List.replicate (4 - (hexDigits c.toNat).length) '0' ++
      (hexDigits c.toNat).map Char.toUpper
  else [c]

/-- The characters of a quoted text, of which at most `bound` quotes in a row are plain. -/
def escapeAll (lines : Bool) (bound : Nat) (run : Nat) : List Char → List Char
  | [] => []
  | c :: r =>
    if c = '"' then
      if run < bound then '"' :: escapeAll lines bound (run + 1) r
      else '\\' :: '"' :: escapeAll lines bound 0 r
    else escape lines c ++ escapeAll lines bound 0 r

/-- A text in a given way of quoting. -/
def quoteAs (q : Quoting) (cs : List Char) : String :=
  let start := if cs.contains '\n' then "\n" else ""
  match q with
  | .basic => "\"" ++ String.ofList (escapeAll false 0 0 cs) ++ "\""
  | .literal => "'" ++ String.ofList cs ++ "'"
  | .basicLines => "\"\"\"" ++ start ++ String.ofList (escapeAll true 2 0 cs) ++ "\"\"\""
  | .literalLines => "'''" ++ start ++ String.ofList cs ++ "'''"

def textValue (s : String) : String :=
  quoteAs (chooseQuoting s.toList) s.toList

/-- A part of a key: as it is if it may be, else between quotes on one line. -/
def keyText (s : String) : String :=
  let cs := s.toList
  if !cs.isEmpty && cs.all isBare then s
  else match chooseQuoting cs with
    | .literal => quoteAs .literal cs
    | _ => quoteAs .basic cs

def pathText (path : List String) : String :=
  join "." (path.map keyText)

/-! ### Values -/

def Real.text : Real → String
  | .finite x =>
    (if x.negative then "-" else "") ++ String.ofList ((Decimal.shortest x).positional true)
  | .infinite negative => if negative then "-inf" else "inf"
  | .undefined => "nan"
  | .tooLarge => "inf"

mutual

/-- A value in one place. An array of several items has a line for each. -/
def valueText : Toml → String
  | .text s => textValue s
  | .integer z => signedDecimal z
  | .real x => x.text
  | .boolean b => if b then "true" else "false"
  | .datetime t => t
  | .array [] => "[]"
  | .array [x] => "[" ++ valueText x ++ "]"
  | .array (x :: y :: xs) =>
    "[\n    " ++ valueText x ++ ",\n    " ++ valueText y ++ ",\n" ++ itemLines xs ++ "]"
  | .table [] => "\x7b\x7d"
  | .table ((k, v) :: ms) =>
    "\x7b " ++ keyText k ++ " = " ++ valueText v ++ memberTexts ms ++ " \x7d"

/-- The items of an array behind the second, each on a line of its own. -/
def itemLines : List Toml → String
  | [] => ""
  | x :: xs => "    " ++ valueText x ++ ",\n" ++ itemLines xs

/-- The members of an inline table behind the first. -/
def memberTexts : List (String × Toml) → String
  | [] => ""
  | (k, v) :: ms => ", " ++ keyText k ++ " = " ++ valueText v ++ memberTexts ms

end

/-! ### Blocks -/

def isTable : Toml → Bool
  | .table _ => true
  | _ => false

/-- Whether a value is written as blocks: a table, or an array of nothing but tables. -/
def isBlock : Toml → Bool
  | .table _ => true
  | .array xs => !xs.isEmpty && xs.all isTable
  | _ => false

structure Block where
  /-- The parts of its key; the root has none. -/
  path : List String
  /-- Whether it is one of an array of tables. -/
  repeated : Bool
  /-- Its members that are not written as blocks. -/
  members : List (String × Toml)
  /-- Whether other blocks lie inside it. -/
  hasInner : Bool

/-- The block of a table itself. -/
def ownBlock (path : List String) (repeated : Bool) (ms : List (String × Toml)) : Block :=
  ⟨path, repeated, ms.filter fun m => !isBlock m.2, ms.any fun m => isBlock m.2⟩

mutual

/-- The blocks of a value at a place. -/
def blocks (path : List String) : Toml → List Block
  | .table ms => ownBlock path false ms :: memberBlocks path ms
  | .array xs => if isBlock (.array xs) then itemBlocks path xs else []
  | _ => []

def memberBlocks (path : List String) : List (String × Toml) → List Block
  | [] => []
  | (k, v) :: ms => blocks (path ++ [k]) v ++ memberBlocks path ms

def itemBlocks (path : List String) : List Toml → List Block
  | [] => []
  | .table ms :: xs => ownBlock path true ms :: (memberBlocks path ms ++ itemBlocks path xs)
  | _ :: xs => itemBlocks path xs

end

namespace Block

/-- Whether a block has to be written: a table with inner blocks alone is plain from these. -/
def isNeeded (b : Block) : Bool :=
  if b.path.isEmpty then !b.members.isEmpty
  else b.repeated || !b.members.isEmpty || !b.hasInner

def header (b : Block) : String :=
  if b.path.isEmpty then ""
  else if b.repeated then "[[" ++ pathText b.path ++ "]]\n"
  else "[" ++ pathText b.path ++ "]\n"

def text (b : Block) : String :=
  b.header ++ String.join (b.members.map fun m => keyText m.1 ++ " = " ++ valueText m.2 ++ "\n")

end Block

def print (root : Toml) : String :=
  join "\n" (((blocks [] root).filter Block.isNeeded).map Block.text)

end ResourceBuild.Toml
