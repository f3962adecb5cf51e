import ResourceBuild.Text.Digits

/-!
# TOML strings

Basic strings with escapes and literal strings without, on one line or on several.
-/

namespace ResourceBuild.Toml

open Text

/-- Characters that may not stand in a string or comment as they are. -/
def isForbidden (c : Char) : Bool :=
  (c.toNat < 0x20 && c != '\t') || c.toNat == 0x7F

/-- A character given by `n` hexadecimal digits. -/
def codePoint? (n : Nat) (cs : List Char) : Option (Char × List Char) :=
  let ds := cs.take n
  if ds.length = n && ds.all fun c => (hexValue? c).isSome then
    let code := ds.foldl (fun m c => m * 16 + (hexValue? c).getD 0) 0
    if code < 0xD800 ∨ (0xDFFF < code ∧ code < 0x110000) then
      some (Char.ofNat code, cs.drop n)
    else none
  else none

/-- The character of an escape whose backslash has been read. -/
def escape? (cs : List Char) : Option (Char × List Char) :=
  match cs with
  | [] => none
  | c :: r =>
    if c = 'b' then some ('\x08', r)
    else if c = 't' then some ('\t', r)
    else if c = 'n' then some ('\n', r)
    else if c = 'f' then some ('\x0c', r)
    else if c = 'r' then some ('\r', r)
    else if c = 'e' then some ('\x1b', r)
    else if c = '"' then some ('"', r)
    else if c = '\\' then some ('\\', r)
    else if c = 'x' then codePoint? 2 r
    else if c = 'u' then codePoint? 4 r
    else if c = 'U' then codePoint? 8 r
    else none

/-- A basic string up to its closing quote; `fuel` bounds its length. -/
def basic? : Nat → List Char → Option (List Char × List Char)
  | 0, _ => none
  | _, [] => none
  | fuel + 1, c :: r =>
    if c = '"' then some ([], r)
    else if c = '\\' then do
      let (d, r) ← escape? r
      let (s, r) ← basic? fuel r
      return (d :: s, r)
    else if isForbidden c then none
    else do
      let (s, r) ← basic? fuel r
      return (c :: s, r)

/-- A literal string up to its closing quote. -/
def literal? (cs : List Char) : Option (List Char × List Char) :=
  let s := cs.takeWhile (· != '\'')
  match cs.drop s.length with
  | [] => none
  | _ :: r => if s.any isForbidden then none else some (s, r)

/-- Leaves out a line end right behind the opening quotes. -/
def dropFirstLineEnd (cs : List Char) : List Char :=
  match cs with
  | '\n' :: r => r
  | '\r' :: '\n' :: r => r
  | r => r

def dropBlankLines : List Char → List Char
  | '\r' :: '\n' :: r => dropBlankLines r
  | c :: r => if c = ' ' ∨ c = '\t' ∨ c = '\n' then dropBlankLines r else c :: r
  | [] => []

def startsLine (cs : List Char) : Bool :=
  match cs with
  | '\n' :: _ => true
  | '\r' :: '\n' :: _ => true
  | _ => false

/-- What closes a string on several lines: three quotes, and up to two more that belong to it. -/
def closing (quote : Char) (cs : List Char) : Option (List Char × List Char) :=
  let run := (cs.takeWhile (· == quote)).length
  if 3 ≤ run then
    let extra := min (run - 3) 2
    some (List.replicate extra quote, cs.drop (extra + 3))
  else none

/-- A string on several lines up to its closing quotes; escapes are read if `escaped` is set. Its
line ends stay as they are written, a carriage return with them, and no other carriage return may
stand in it. -/
def lines? (quote : Char) (escaped : Bool) : Nat → List Char → Option (List Char × List Char)
  | 0, _ => none
  | _, [] => none
  | fuel + 1, c :: r =>
    match closing quote (c :: r) with
    | some (s, rest) => some (s, rest)
    | none =>
      if c = '\\' ∧ escaped then
        if startsLine (r.dropWhile fun c => c == ' ' || c == '\t') then
          -- a backslash at the end of a line joins it with the next text
          lines? quote escaped fuel (dropBlankLines r)
        else do
          let (d, r) ← escape? r
          let (s, r) ← lines? quote escaped fuel r
          return (d :: s, r)
      else if isForbidden c && !startsLine (c :: r) then none
      else do
        let (s, r) ← lines? quote escaped fuel r
        return (c :: s, r)

/-- A string on one line, in either kind of quotes. -/
def lineString? (cs : List Char) : Option (String × List Char) :=
  match cs with
  | '"' :: r => (basic? (r.length + 1) r).map fun p => (String.ofList p.1, p.2)
  | '\'' :: r => (literal? r).map fun p => (String.ofList p.1, p.2)
  | _ => none

def string? (cs : List Char) : Option (String × List Char) :=
  match cs with
  | '"' :: '"' :: '"' :: r =>
    (lines? '"' true (r.length + 1) (dropFirstLineEnd r)).map fun p => (String.ofList p.1, p.2)
  | '\'' :: '\'' :: '\'' :: r =>
    (lines? '\'' false (r.length + 1) (dropFirstLineEnd r)).map fun p => (String.ofList p.1, p.2)
  | cs => lineString? cs

end ResourceBuild.Toml
