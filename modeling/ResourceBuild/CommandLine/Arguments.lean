import ResourceBuild.Decimal.Word
import ResourceBuild.Files.Path
import ResourceBuild.Text.Digits

/-!
# Command lines

A command line names a command, with flags and settings of its own. Those that hold for all commands
may stand before the command or behind it.
-/

namespace ResourceBuild.CommandLine

open Files (Path)

/-- The flags, which are there or not. -/
inductive Flag where
  | quiet
  | verbose
  | skipBundle
  | force
  | help
  | version
  deriving DecidableEq

/-- The settings, which have a value. -/
inductive Setting where
  | config
  | repository
  | current
  | delay
  deriving DecidableEq

inductive Verb where
  | build
  | check
  | render
  | init
  | releaseCheck
  deriving DecidableEq

def verbs : List (String × Verb) :=
  [("build", .build), ("check", .check), ("render", .render), ("init", .init),
    ("release-check", .releaseCheck)]

/-- Why a command line is not carried out: it is not understood, or it asks about the program. -/
inductive Stop where
  | misused
  | help
  | version
  deriving DecidableEq

/-- A piece of a command line. -/
inductive Piece where
  | flag (f : Flag)
  | setting (s : Setting) (value : String)
  | operand (value : String)
  deriving DecidableEq

/-- The flags that may stand before a command, or behind this one, under their long names. -/
def longFlags : Option Verb → List (String × Flag)
  | none => [("quiet", .quiet), ("verbose", .verbose), ("help", .help), ("version", .version)]
  | some verb =>
    [("quiet", .quiet), ("verbose", .verbose), ("help", .help)] ++
      match verb with
      | .build => [("skip-bundle", .skipBundle)]
      | .init => [("force", .force)]
      | _ => []

/-- The flags that may stand there under letters. -/
def shortFlags : Option Verb → List (Char × Flag)
  | none => [('q', .quiet), ('v', .verbose), ('h', .help), ('V', .version)]
  | some verb =>
    [('q', .quiet), ('v', .verbose), ('h', .help)] ++
      match verb with
      | .init => [('f', .force)]
      | _ => []

/-- The settings that may stand there. -/
def settings : Option Verb → List (String × Setting)
  | some .releaseCheck =>
    [("config", .config), ("repository", .repository), ("current", .current),
      ("delay-secs", .delay)]
  | _ => [("config", .config)]

/-- The number of seconds that a text stands for. -/
def seconds? (s : String) : Option Nat :=
  Text.readIndex? (Decimal.Word.size 64) s

def isValue (s : Setting) (value : String) : Bool :=
  match s with
  | .config => !value.isEmpty
  | .delay => (seconds? value).isSome
  | _ => true

/-- Whether a piece may stand only once, and has stood before. -/
def isRepeated (before : List Piece) (p : Piece) : Bool :=
  match p with
  | .flag .verbose => false
  | .flag f => before.contains (.flag f)
  | .setting s _ => before.any fun
    | .setting t _ => s == t
    | _ => false
  | .operand _ => before.any fun
    | .operand _ => true
    | _ => false

/-- One more piece, unless it may not stand behind those before it. -/
def addPiece (before : List Piece) (p : Piece) : Except Stop (List Piece) :=
  match p with
  | .flag .help => .error .help
  | .flag .version => .error .version
  | .setting s value =>
    if isRepeated before p || !isValue s value then .error .misused else .ok (before ++ [p])
  | p => if isRepeated before p then .error .misused else .ok (before ++ [p])

/-- The pieces that letters behind a dash stand for. -/
def addLetters (verb : Option Verb) (before : List Piece) : List Char → Except Stop (List Piece)
  | [] => .ok before
  | c :: cs =>
    match (shortFlags verb).lookup c with
    | none => .error .misused
    | some f => do addLetters verb (← addPiece before (.flag f)) cs

/-- Whether an argument is taken for a flag or a setting. -/
def startsWithDash (argument : String) : Bool :=
  match argument.toList with
  | '-' :: _ :: _ => true
  | _ => false

/-- A long name, and the value behind an equals sign. -/
def cutName (cs : List Char) : String × Option String :=
  let name := cs.takeWhile (· != '=')
  match cs.drop name.length with
  | [] => (String.ofList name, none)
  | _ :: value => (String.ofList name, some (String.ofList value))

/-- The arguments before the first operand, and all from that operand on. -/
structure Split where
  pieces : List Piece
  rest : List String

/--
The pieces of some arguments. Before the command they end at the first operand; behind it, the
command that makes a file takes an operand, the name of that file.
-/
def readPieces (verb : Option Verb) (before : List Piece) : List String → Except Stop Split
  | [] => .ok ⟨before, []⟩
  | argument :: rest =>
    match argument.toList with
    | ['-', '-'] =>
      -- what follows are operands, whatever they look like
      if verb = some .init then do
        let pieces ← rest.foldlM (fun ps operand => addPiece ps (.operand operand)) before
        return ⟨pieces, []⟩
      else if rest.isEmpty then .ok ⟨before, []⟩
      else .error .misused
    | '-' :: '-' :: cs =>
      let (name, value) := cutName cs
      match (longFlags verb).lookup name, (settings verb).lookup name, value with
      | some f, _, none => do readPieces verb (← addPiece before (.flag f)) rest
      | some _, _, some _ => .error .misused
      | none, some s, some value => do readPieces verb (← addPiece before (.setting s value)) rest
      | none, some s, none =>
        match rest with
        | value :: rest =>
          if startsWithDash value then .error .misused
          else do readPieces verb (← addPiece before (.setting s value)) rest
        | [] => .error .misused
      | none, none, _ => .error .misused
    | '-' :: c :: cs => do readPieces verb (← addLetters verb before (c :: cs)) rest
    | _ =>
      match verb with
      | none => .ok ⟨before, argument :: rest⟩
      | some .init => do readPieces verb (← addPiece before (.operand argument)) rest
      | some _ => .error .misused

structure Options where
  quiet : Bool := false
  verbosity : Nat := 0
  config : Option Path := none
  deriving DecidableEq

/-- How much is told on the standard error output; being quiet wins. -/
def Options.level (o : Options) : Nat :=
  if o.quiet then 0 else o.verbosity

inductive Command where
  | build (skipBundle : Bool)
  | check
  | render
  | init (file : Option String) (force : Bool)
  | releaseCheck (repository current : Option String) (delay : Option Nat)
  deriving DecidableEq

def setting? (s : Setting) (pieces : List Piece) : Option String :=
  pieces.findSome? fun
    | .setting t value => if t = s then some value else none
    | _ => none

def operand? (pieces : List Piece) : Option String :=
  pieces.findSome? fun
    | .operand value => some value
    | _ => none

/-- How often a flag stands among some pieces; the count ends at 255. -/
def flagCount (f : Flag) (pieces : List Piece) : Nat :=
  min 255 (pieces.count (.flag f))

/-- What holds for all commands. What is given behind the command wins. -/
def optionsOf (above below : List Piece) : Options where
  quiet := flagCount .quiet above != 0 || flagCount .quiet below != 0
  verbosity :=
    if flagCount .verbose below = 0 then flagCount .verbose above else flagCount .verbose below
  config := ((setting? .config below).or (setting? .config above)).map Files.Path.mk

/-- A command with the settings behind it. -/
def commandOf (verb : Verb) (pieces : List Piece) : Command :=
  match verb with
  | .build => .build (flagCount .skipBundle pieces != 0)
  | .check => .check
  | .render => .render
  | .init => .init (operand? pieces) (flagCount .force pieces != 0)
  | .releaseCheck =>
    .releaseCheck (setting? .repository pieces) (setting? .current pieces)
      ((setting? .delay pieces).bind seconds?)

/-- The command that a command line stands for, with what holds for all commands. -/
def parse (arguments : List String) : Except Stop (Options × Command) := do
  let above ← readPieces none [] arguments
  match above.rest with
  | [] => .error .misused
  | name :: rest =>
    if name = "help" then .error .help
    else
      match verbs.lookup name with
      | none => .error .misused
      | some verb =>
        let below ← readPieces (some verb) [] rest
        return (optionsOf above.pieces below.pieces, commandOf verb below.pieces)

end ResourceBuild.CommandLine
