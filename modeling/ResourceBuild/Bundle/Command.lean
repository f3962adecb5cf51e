import ResourceBuild.Files.Path
import ResourceBuild.Json.Printer

/-!
# The command line of the bundler

The bundler is given the entry points, one output file, and the configured options as flags.
-/

namespace ResourceBuild.Bundle

open Files (Path)

structure Request where
  entries : List Path
  output : Path
  options : Members

/-- Whether a character is an ASCII capital letter. -/
def isCapital (c : Char) : Bool :=
  'A' ≤ c && c ≤ 'Z'

/-- A character of a flag behind its first: underscores and capitals begin a new word. -/
def flagChar (c : Char) : List Char :=
  if c = '_' then ['-']
  else if isCapital c then ['-', c.toLower]
  else [c]

/-- The flag of an option: `keep_names` and `keepNames` are both `keep-names`. -/
def flagName (key : String) : String :=
  match key.toList with
  | [] => ""
  | c :: r => String.ofList ((if c = '_' then '-' else c.toLower) :: r.flatMap flagChar)

/-- A value behind an equals sign: a text as it is, all else as JSON. -/
def scalar : Json → String
  | .text s => s
  | v => v.compact

def flagsOf (key : String) (v : Json) : List String :=
  let flag := "--" ++ flagName key
  match v with
  | .null => []
  | .boolean true => [flag]
  | .boolean false => []
  | .array xs => xs.map fun x => flag ++ "=" ++ scalar x
  | .object ms => ms.map fun m => flag ++ ":" ++ m.1 ++ "=" ++ scalar m.2
  | v => [flag ++ "=" ++ scalar v]

def optionFlags (options : Members) : List String :=
  options.flatMap fun m => flagsOf m.1 m.2

def arguments (r : Request) : List String :=
  r.entries.map Path.text ++ ["--bundle", "--outfile=" ++ r.output.text] ++ optionFlags r.options

end ResourceBuild.Bundle
