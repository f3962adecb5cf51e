import ResourceBuild.Text.Digits
import ResourceBuild.Text.Pieces

/-!
# Web addresses

How an address is written once a request is made for it: characters that may not stand in it are
given by their bytes, and steps upwards in its path are taken.
-/

namespace ResourceBuild.Release

open Text

/-- The parts of an address behind its host. -/
inductive AddressPart where
  | path
  | query
  | fragment
  deriving DecidableEq

/-- Whether a character has to be given by its bytes in a part of an address. -/
def isEscapedIn (part : AddressPart) (c : Char) : Bool :=
  c.toNat ≤ 0x20 || 0x7E < c.toNat || c == '"' || c == '<' || c == '>' ||
    match part with
    | .path => c == '`' || c == '#' || c == '?' || c == '\x7b' || c == '\x7d'
    | .query => c == '#' || c == '\''
    | .fragment => c == '`'

def percentByte (b : UInt8) : List Char :=
  let ds := (hexDigits b.toNat).map Char.toUpper
  '%' :: (List.replicate (2 - ds.length) '0' ++ ds)

/-- A text as it stands in a part of an address. -/
def percentText (part : AddressPart) (cs : List Char) : List Char :=
  cs.flatMap fun c =>
    if isEscapedIn part c then (String.singleton c).toUTF8.data.toList.flatMap percentByte else [c]

/-- Whether a segment of a path stays where it is. -/
def isSingleDot (s : String) : Bool :=
  s == "." || s == "%2e" || s == "%2E"

/-- Whether a segment of a path leads upwards. -/
def isDoubleDot (s : String) : Bool :=
  let plain := s.toList.map Char.toLower
  plain == ['.', '.'] || plain == ['.', '%', '2', 'e'] || plain == ['%', '2', 'e', '.'] ||
    plain == ['%', '2', 'e', '%', '2', 'e']

/-- The segments of a path, of which those so far are given from the last one on. -/
def takeSteps (done : List String) : List String → List String
  | [] => done.reverse
  | [last] =>
    if isDoubleDot last then ("" :: done.tail).reverse
    else if isSingleDot last then ("" :: done).reverse
    else (last :: done).reverse
  | s :: ss =>
    if isDoubleDot s then takeSteps done.tail ss
    else if isSingleDot s then takeSteps done ss
    else takeSteps (s :: done) ss

def pathOf (cs : List Char) : String :=
  let plain := cs.map fun c => if c = '\\' then '/' else c
  let segments := (cut '/' (String.ofList plain)).map fun s =>
    String.ofList (percentText .path s.toList)
  "/" ++ join "/" (takeSteps [] segments)

/-- An address of a host, followed by a path with what may stand behind it. -/
def address (host : String) (rest : String) : String :=
  let cs := rest.toList.filter fun c => c != '\t' && c != '\n' && c != '\r'
  let beforeFragment := cs.takeWhile (· != '#')
  let path := beforeFragment.takeWhile (· != '?')
  let query := beforeFragment.drop path.length
  let fragment := cs.drop beforeFragment.length
  host ++ pathOf path ++
    (match query with
     | [] => ""
     | _ :: q => "?" ++ String.ofList (percentText .query q)) ++
    (match fragment with
     | [] => ""
     | _ :: f => "#" ++ String.ofList (percentText .fragment f))

end ResourceBuild.Release
