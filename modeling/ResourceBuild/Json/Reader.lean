import ResourceBuild.Decimal.Word
import ResourceBuild.Json.Basic
import ResourceBuild.Text.Digits

/-!
# Reading JSON

The reader works on the characters still to be read. A fault says what is wrong and how many bytes
follow the offending one, from which its line and column are found.
-/

namespace ResourceBuild.Json

open Decimal
open Text

/-- What can be wrong with a JSON text. -/
inductive Problem where
  | endInValue
  | endInObject
  | endInList
  | endInString
  | expectedValue
  | expectedWord
  | expectedColon
  | expectedCommaOrBrace
  | expectedCommaOrBracket
  | keyNotText
  | trailingComma
  | trailingCharacters
  | invalidNumber
  | numberOutOfRange
  | invalidEscape
  | unpairedEscape
  | loneSurrogate
  | controlCharacter
  | tooDeep
  deriving DecidableEq

/-- A problem, and the number of bytes behind the byte at which it shows. -/
structure Fault where
  problem : Problem
  unread : Nat
  deriving DecidableEq

/--
What a value is read for. A value that is kept has to be finite, of bounded depth and free of
unpaired surrogates; one that is passed over merely has to end. Of a record only the members with
the named keys are kept.
-/
inductive Purpose where
  | keep
  | pass
  | record (keys : List String)

/-- Whether a value is merely passed over. -/
def Purpose.passes : Purpose → Bool
  | .pass => true
  | _ => false

/-- What the items of an array are read for. -/
def Purpose.forItems : Purpose → Purpose
  | .pass => .pass
  | _ => .keep

/-- What the value under a key is read for. -/
def Purpose.forKey (key : String) : Purpose → Purpose
  | .keep => .keep
  | .pass => .pass
  | .record keys => if keys.contains key then .keep else .pass

def byteSize (cs : List Char) : Nat :=
  cs.foldl (fun n c => n + c.utf8Size) 0

/-- A problem at the first byte of what is left. -/
def faultAt (p : Problem) (cs : List Char) : Fault :=
  ⟨p, byteSize cs - 1⟩

/-- A problem that shows once all before `rest` is read. -/
def faultBefore (p : Problem) (rest : List Char) : Fault :=
  ⟨p, byteSize rest⟩

/-- A problem at the end of the text. -/
def faultAtEnd (p : Problem) : Fault :=
  ⟨p, 0⟩

/-- JSON's own blanks. -/
def isSpace (c : Char) : Bool :=
  c == ' ' || c == '\n' || c == '\t' || c == '\r'

def skipSpace (cs : List Char) : List Char :=
  cs.dropWhile isSpace

/-- What is left after the rest of a word. -/
def word : List Char → List Char → Except Fault (List Char)
  | [], cs => .ok cs
  | _ :: _, [] => .error (faultAtEnd .endInValue)
  | w :: ws, c :: cs => if c = w then word ws cs else .error (faultAt .expectedWord (c :: cs))

/-- The value of four hexadecimal digits; the text after them goes on at `rest`. -/
def hexQuad (cs : List Char) : Except Fault (Nat × List Char) :=
  if byteSize cs < 4 then .error (faultAtEnd .endInString)
  else
    match cs with
    | a :: b :: c :: d :: rest =>
      match hexValue? a, hexValue? b, hexValue? c, hexValue? d with
      | some a, some b, some c, some d => .ok (((a * 16 + b) * 16 + c) * 16 + d, rest)
      | _, _, _, _ => .error ⟨.invalidEscape, byteSize cs - 4⟩
    | cs => .error ⟨.invalidEscape, byteSize cs - 4⟩

/-- The character of a simple escape. -/
def simpleEscape? (c : Char) : Option Char :=
  if c = '"' then some '"'
  else if c = '\\' then some '\\'
  else if c = '/' then some '/'
  else if c = 'b' then some '\x08'
  else if c = 'f' then some '\x0c'
  else if c = 'n' then some '\n'
  else if c = 'r' then some '\r'
  else if c = 't' then some '\t'
  else none

/-- Whether a code unit is the first half of a surrogate pair. -/
def isLeading (n : Nat) : Bool :=
  0xD800 ≤ n && n ≤ 0xDBFF

/-- Whether a code unit is the second half of a surrogate pair. -/
def isTrailing (n : Nat) : Bool :=
  0xDC00 ≤ n && n ≤ 0xDFFF

/-- The character of an escape by code units, its first four digits being next. -/
def unitEscape (purpose : Purpose) (cs : List Char) : Except Fault (Char × List Char) := do
  let (n, rest) ← hexQuad cs
  if purpose.passes then return (Char.ofNat n, rest)
  else if isTrailing n then throw (faultBefore .loneSurrogate rest)
  else if isLeading n then
    match rest with
    | '\\' :: 'u' :: more =>
      let (m, rest) ← hexQuad more
      if isTrailing m then
        return (Char.ofNat ((n - 0xD800) * 0x400 + (m - 0xDC00) + 0x10000), rest)
      else
        throw (faultBefore .loneSurrogate rest)
    | [] => throw (faultAtEnd .endInString)
    | ['\\'] => throw (faultAtEnd .endInString)
    | '\\' :: more => throw (faultAt .unpairedEscape more)
    | rest => throw (faultAt .unpairedEscape rest)
  else return (Char.ofNat n, rest)

/-- The characters of a string up to its closing quote; `fuel` bounds their number. -/
def stringBody (purpose : Purpose) : Nat → List Char → Except Fault (List Char × List Char)
  | 0, _ => .error (faultAtEnd .endInString)
  | _, [] => .error (faultAtEnd .endInString)
  | fuel + 1, c :: cs =>
    if c = '"' then .ok ([], cs)
    else if c = '\\' then
      match cs with
      | [] => .error (faultAtEnd .endInString)
      | e :: cs =>
        if e = 'u' then do
          let (c, rest) ← unitEscape purpose cs
          let (s, rest) ← stringBody purpose fuel rest
          return (c :: s, rest)
        else
          match simpleEscape? e with
          | some c => do
            let (s, rest) ← stringBody purpose fuel cs
            return (c :: s, rest)
          | none => .error (faultAt .invalidEscape (e :: cs))
    else if c.toNat < 0x20 then .error (faultAt .controlCharacter (c :: cs))
    else do
      let (s, rest) ← stringBody purpose fuel cs
      return (c :: s, rest)

/-- A string whose opening quote has been read. -/
def string (purpose : Purpose) (cs : List Char) : Except Fault (String × List Char) := do
  let (s, rest) ← stringBody purpose (cs.length + 1) cs
  return (String.ofList s, rest)

/-- The digits after the point of a number, if it has one. -/
def fraction (cs : List Char) : Except Fault (List Char × List Char) :=
  match cs with
  | '.' :: r =>
    match takeDigits r with
    | ([], []) => .error (faultAtEnd .endInValue)
    | ([], r) => .error (faultAt .invalidNumber r)
    | (ds, r) => .ok (ds, r)
  | cs => .ok ([], cs)

/-- The exponent of a number, if it has one: whether it is negative, and its digits. -/
def exponent (cs : List Char) : Except Fault (Option (Bool × List Char) × List Char) :=
  match cs with
  | [] => .ok (none, [])
  | c :: r =>
    if c = 'e' ∨ c = 'E' then
      let (negative, r) := match r with
        | '+' :: r => (false, r)
        | '-' :: r => (true, r)
        | r => (false, r)
      match takeDigits r with
      | ([], []) => .error (faultAtEnd .endInValue)
      | ([], r) => .error (faultAt .invalidNumber r)
      | (ds, r) => .ok (some (negative, ds), r)
    else .ok (none, c :: r)

/-- The digits of an exponent behind the first one with which it is beyond 32 bits. -/
def beyondExponent (read : Nat) : List Char → Option (List Char)
  | [] => none
  | d :: ds =>
    let n := read * 10 + digitsValue [d]
    if Word.fitsSigned 32 n then beyondExponent n ds else some ds

/-- The double that is nearest to the real with these digits before and after the point and this
exponent. -/
def realNumber (purpose : Purpose) (negative : Bool) (whole frac : List Char)
    (exp : Option (Bool × List Char)) (rest : List Char) : Except Fault Number :=
  let m := digitsValue (whole ++ frac)
  let (low, ds) := exp.getD (false, [])
  let sized (e : Int) : Except Fault Number :=
    match Double.ofDecimal? negative m (e - frac.length) with
    | some x => .ok (.real x)
    | none =>
      if purpose.passes then .ok (.real (Double.zero negative))
      else .error (faultBefore .numberOutOfRange rest)
  match beyondExponent 0 ds with
  | some unread =>
    if m = 0 ∨ low ∨ purpose.passes then .ok (.real (Double.zero negative))
    else .error (faultBefore .numberOutOfRange (unread ++ rest))
  | none => sized (if low then -(digitsValue ds : Int) else digitsValue ds)

/-- A number whose sign has been read. -/
def unsignedNumber (purpose : Purpose) (negative : Bool) (cs : List Char) :
    Except Fault (Number × List Char) :=
  match takeDigits cs with
  | ([], []) => .error (faultAtEnd .endInValue)
  | ([], r) => .error (faultAt .invalidNumber r)
  | ('0' :: d :: ds, r) => .error (faultAt .invalidNumber (d :: ds ++ r))
  | (whole, r) => do
    let (frac, r) ← fraction r
    let (exp, rest) ← exponent r
    let n := digitsValue whole
    if frac.isEmpty && exp.isNone && !negative && Word.fitsUnsigned 64 n then
      return (.integer n, rest)
    else if frac.isEmpty && exp.isNone && negative && n != 0 &&
        Word.fitsSigned 64 (-(n : Int)) then
      return (.integer (-(n : Int)), rest)
    else
      let x ← realNumber purpose negative whole frac exp rest
      return (x, rest)

mutual

/-- A value. Each step into or along an array or object takes one of `fuel`. -/
def value (purpose : Purpose) : Nat → Nat → List Char → Except Fault (Json × List Char)
  | 0, _, _ => .error (faultAtEnd .endInValue)
  | fuel + 1, depth, cs =>
    match skipSpace cs with
    | [] => .error (faultAtEnd .endInValue)
    | c :: r =>
      if c = 'n' then do return (.null, ← word ['u', 'l', 'l'] r)
      else if c = 't' then do return (.boolean true, ← word ['r', 'u', 'e'] r)
      else if c = 'f' then do return (.boolean false, ← word ['a', 'l', 's', 'e'] r)
      else if c = '"' then do
        let (s, r) ← string purpose r
        return (.text s, r)
      else if c = '-' then do
        let (n, r) ← unsignedNumber purpose true r
        return (.number n, r)
      else if isDigit c then do
        let (n, r) ← unsignedNumber purpose false (c :: r)
        return (.number n, r)
      else if c = '[' then
        if depth = 0 ∧ !purpose.passes then .error (faultAt .tooDeep (c :: r))
        else
          match skipSpace r with
          | [] => .error (faultAtEnd .endInList)
          | d :: rest =>
            if d = ']' then .ok (.array [], rest)
            else do
              let (xs, rest) ← items purpose.forItems fuel (depth - 1) (d :: rest)
              return (.array xs, rest)
      else if c = '\x7b' then
        if depth = 0 ∧ !purpose.passes then .error (faultAt .tooDeep (c :: r))
        else
          match skipSpace r with
          | [] => .error (faultAtEnd .endInObject)
          | d :: rest =>
            if d = '\x7d' then .ok (.object [], rest)
            else if d = '"' then do
              let (ms, rest) ← members purpose fuel (depth - 1) rest
              return (.object ms, rest)
            else .error (faultAt .keyNotText (d :: rest))
      else .error (faultAt .expectedValue (c :: r))

/-- The items of an array, from its first one on. -/
def items (purpose : Purpose) : Nat → Nat → List Char → Except Fault (List Json × List Char)
  | 0, _, _ => .error (faultAtEnd .endInList)
  | fuel + 1, depth, cs => do
    let (x, r) ← value purpose fuel depth cs
    match skipSpace r with
    | [] => throw (faultAtEnd .endInList)
    | c :: r =>
      if c = ']' then return ([x], r)
      else if c = ',' then
        match skipSpace r with
        | [] => throw (faultAtEnd .endInValue)
        | d :: rest =>
          if d = ']' then throw (faultAt .trailingComma (d :: rest))
          else
            let (xs, rest) ← items purpose fuel depth (d :: rest)
            return (x :: xs, rest)
      else throw (faultAt .expectedCommaOrBracket (c :: r))

/-- The members of an object, from behind the quote that opens its first key. -/
def members (purpose : Purpose) :
    Nat → Nat → List Char → Except Fault (List (String × Json) × List Char)
  | 0, _, _ => .error (faultAtEnd .endInObject)
  | fuel + 1, depth, cs => do
    let (k, r) ← string purpose cs
    match skipSpace r with
    | [] => throw (faultAtEnd .endInObject)
    | c :: r =>
      if c = ':' then
        let (v, r) ← value (purpose.forKey k) fuel depth r
        match skipSpace r with
        | [] => throw (faultAtEnd .endInObject)
        | c :: r =>
          if c = '\x7d' then return ([(k, v)], r)
          else if c = ',' then
            match skipSpace r with
            | [] => throw (faultAtEnd .endInValue)
            | d :: rest =>
              if d = '"' then
                let (ms, rest) ← members purpose fuel depth rest
                return ((k, v) :: ms, rest)
              else if d = '\x7d' then throw (faultAt .trailingComma (d :: rest))
              else throw (faultAt .keyNotText (d :: rest))
          else throw (faultAt .expectedCommaOrBrace (c :: r))
      else throw (faultAt .expectedColon (c :: r))

end

def maxDepth : Nat := 127

/-- Enough fuel for any value in this text: no step is taken twice without reading on. -/
def fuelFor (cs : List Char) : Nat :=
  2 * cs.length + 2

/-- The value a text holds, with its repeated keys. -/
def document (purpose : Purpose) (cs : List Char) : Except Fault Json := do
  let (v, r) ← value purpose (fuelFor cs) maxDepth cs
  match skipSpace r with
  | [] => return v
  | rest => throw (faultAt .trailingCharacters rest)

/-- The line and the column in bytes that are reached after `n` bytes. -/
def locate (line column : Nat) : Nat → List Char → Nat × Nat
  | _, [] => (line, column)
  | n, c :: cs =>
    if n = 0 then (line, column)
    else if c = '\n' then locate (line + 1) 0 (n - 1) cs
    else if n < c.utf8Size then (line, column + n)
    else locate line (column + c.utf8Size) (n - c.utf8Size) cs

/-- Why a text is not JSON, and where that shows. -/
structure ParseError where
  problem : Problem
  line : Nat
  column : Nat
  deriving DecidableEq

/-- A fault with its place in the text. -/
def Fault.located (f : Fault) (cs : List Char) : ParseError :=
  let (line, column) := locate 1 0 (byteSize cs - f.unread) cs
  ⟨f.problem, line, column⟩

def Problem.message : Problem → String
  | .endInValue => "EOF while parsing a value"
  | .endInObject => "EOF while parsing an object"
  | .endInList => "EOF while parsing a list"
  | .endInString => "EOF while parsing a string"
  | .expectedValue => "expected value"
  | .expectedWord => "expected ident"
  | .expectedColon => "expected `:`"
  | .expectedCommaOrBrace => "expected `,` or `\x7d`"
  | .expectedCommaOrBracket => "expected `,` or `]`"
  | .keyNotText => "key must be a string"
  | .trailingComma => "trailing comma"
  | .trailingCharacters => "trailing characters"
  | .invalidNumber => "invalid number"
  | .numberOutOfRange => "number out of range"
  | .invalidEscape => "invalid escape"
  | .unpairedEscape => "unexpected end of hex escape"
  | .loneSurrogate => "lone leading surrogate in hex escape"
  | .controlCharacter => "control character (\\u0000-\\u001F) found while parsing a string"
  | .tooDeep => "recursion limit exceeded"

def ParseError.message (e : ParseError) : String :=
  e.problem.message ++ " at line " ++ Text.decimal e.line ++ " column " ++ Text.decimal e.column

/-- The value a text holds; a repeated key keeps its first place and its last value. -/
def parse (s : String) : Except ParseError Json :=
  match document .keep s.toList with
  | .ok v => .ok v.canonical
  | .error f => .error (f.located s.toList)

end ResourceBuild.Json
