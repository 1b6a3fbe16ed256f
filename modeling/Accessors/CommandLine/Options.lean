/-
  Accessors.CommandLine.Options — what the program is asked to do.

  The program takes two flags of its own and a command with the rest of the arguments:
  to generate accessors into a file, or to serve an editor. A command has its own flags.
  What is wrong with the arguments is told under the usage of the part that found it.

  A flag that is given without a value counts as given. For settings and the address of
  the server that is the same as none, and the log's format is then the standard one; a
  level, a line or a kind that is missing shows only where it is needed.
-/
import Accessors.CommandLine.Grammar
import Accessors.Log.Setup
import Accessors.Number.IntText
import Accessors.Render.Accessor

namespace Accessors.CommandLine

inductive Request where
  /-- A line or a kind is `none` where its flag has no value. -/
  | generate (file : Text) (lines : List (Option Int)) (kind : Option AccessorKind) (config : Option Text)
    (dryRun : Bool)
  | serve (tcp : Option Text)
  deriving DecidableEq, Repr

structure Options where
  /-- The level's name, or `none` where its flag has no value. -/
  logLevel : Option Text
  logFormat : Text
  request : Request
  deriving DecidableEq, Repr

/-- The parts of the program that take arguments. -/
inductive Part where
  | program
  | generate
  | server
  deriving DecidableEq, Repr

/-! ## Flags -/

def helpFlag : Flag := ⟨["-h".toList, "--help".toList], .help⟩

def logLevelFlag : Flag := ⟨["--log-level".toList], .value fun _ => none⟩

def logFormatFlag : Flag := ⟨["--log-format".toList], .value (oneOf ["standard".toList, "json".toList])⟩

def checkLine (t : Text) : Option Text :=
  match IntText.readText t with
  | .ok _ => none
  | .error _ => some ("invalid int value: ".toList ++ Text.quoted t)

def lineFlag : Flag := ⟨["--line".toList], .value checkLine⟩

def kinds : List (Text × AccessorKind) := [
  ("both".toList, .both), ("getter".toList, .getter), ("setter".toList, .setter)]

def kindFlag : Flag := ⟨["--kind".toList], .value (oneOf (kinds.map (·.1)))⟩

def configFlag : Flag := ⟨["--config".toList], .value fun _ => none⟩

def dryRunFlag : Flag := ⟨["--dry-run".toList], .switch⟩

def tcpFlag : Flag := ⟨["--tcp".toList], .value fun _ => none⟩

def Part.grammar : Part → Grammar
  | .program => ⟨[helpFlag, logLevelFlag, logFormatFlag], .rest⟩
  | .generate => ⟨[helpFlag, lineFlag, kindFlag, configFlag, dryRunFlag], .one⟩
  | .server => ⟨[helpFlag, tcpFlag], .none⟩

/-! ## Usage and help -/

def programName : Text := "php-getters-setters".toList

def Part.title : Part → Text
  | .program => programName
  | .generate => programName ++ " generate".toList
  | .server => programName ++ " lsp".toList

def Part.usage : Part → Text
  | .program => "usage: php-getters-setters [-h] [--log-level LOG_LEVEL]
                           [--log-format \x7bstandard,json\x7d]
                           \x7bgenerate,lsp\x7d ...
".toList
  | .generate => "usage: php-getters-setters generate [-h] --line LINE
                                    [--kind \x7bboth,getter,setter\x7d]
                                    [--config CONFIG] [--dry-run]
                                    file
".toList
  | .server => "usage: php-getters-setters lsp [-h] [--tcp HOST:PORT]
".toList

def Part.details : Part → Text
  | .program => "
Generate getters and setters for PHP class properties.

positional arguments:
  \x7bgenerate,lsp\x7d
    generate            Insert accessors into a PHP file
    lsp                 Start the language server

options:
  -h, --help            show this help message and exit
  --log-level LOG_LEVEL
                        Log level (DEBUG, INFO, WARNING, ERROR)
  --log-format \x7bstandard,json\x7d
                        Log record format
".toList
  | .generate => "
positional arguments:
  file                  PHP file to edit

options:
  -h, --help            show this help message and exit
  --line LINE           One-based line of a property declaration (repeatable)
  --kind \x7bboth,getter,setter\x7d
                        Which accessors to generate
  --config CONFIG       JSON settings file
  --dry-run             Print the generated code instead of writing the file
".toList
  | .server => "
options:
  -h, --help       show this help message and exit
  --tcp HOST:PORT  Listen on TCP instead of stdio
".toList

/-- Why no options come out of the arguments, and which part found out. -/
structure Refusal where
  part : Part
  halt : Halt
  deriving DecidableEq, Repr

def Refusal.isHelp (r : Refusal) : Bool := r.halt == .help

/-- What is shown: the help, or the usage and the error. -/
def Refusal.text (r : Refusal) : Text :=
  match r.halt with
  | .help => r.part.usage ++ r.part.details
  | .error t => r.part.usage ++ r.part.title ++ ": error: ".toList ++ t ++ ['\n']

/-! ## Reading -/

def Part.parse (part : Part) (args : List Text) : Except Refusal Taken :=
  match part.grammar.parse args with
  | .ok t => .ok t
  | .error h => .error ⟨part, h⟩

def required (names : List Text) : Halt :=
  .error ("the following arguments are required: ".toList ++ Text.joinWith ", ".toList names)

/-- The values of a flag, in order. -/
def Taken.valuesOf (s : Taken) (f : Flag) : List (Option Text) :=
  (s.values.filter fun v => v.1 == f.key).map (·.2)

/-- The last value of a flag takes the place of those before. -/
def Taken.last? (s : Taken) (f : Flag) : Option (Option Text) := (s.valuesOf f).getLast?

/-- The last value of a flag, if it has one. -/
def Taken.value? (s : Taken) (f : Flag) : Option Text := (s.last? f).join

/-- The last value of a flag, or `default` if the flag is not given at all. -/
def Taken.valueOr (s : Taken) (f : Flag) (default : Text) : Option Text := (s.last? f).getD (some default)

def lineNumbers (s : Taken) : List (Option Int) :=
  (s.valuesOf lineFlag).map fun value => value.bind fun t => (IntText.readText t).toOption

def kindOf? (name : Text) : Option AccessorKind := (kinds.find? fun k => k.1 == name).map (·.2)

def generateRequest (s : Taken) : Except Refusal Request :=
  match s.words, lineNumbers s with
  | some (file :: _), lines@(_ :: _) =>
    .ok (.generate file lines ((s.valueOr kindFlag "both".toList).bind kindOf?) (s.value? configFlag)
      (s.last? dryRunFlag).isSome)
  | some (_ :: _), [] => .error ⟨.generate, required ["--line".toList]⟩
  | _, _ :: _ => .error ⟨.generate, required ["file".toList]⟩
  | _, [] => .error ⟨.generate, required ["file".toList, "--line".toList]⟩

def commands : List (Text × Part) := [("generate".toList, .generate), ("lsp".toList, .server)]

/-- The request of a command, and what its arguments leave over. -/
def requestOf (part : Part) (args : List Text) : Except Refusal (Request × List Text) := do
  let s ← part.parse args
  match part with
  | .generate => pure (← generateRequest s, s.leftOver)
  | _ => pure (.serve (s.value? tcpFlag), s.leftOver)

def unrecognized (leftOver : List Text) : Halt :=
  .error ("unrecognized arguments: ".toList ++ Text.joinWith [' '] leftOver)

def Options.ofArguments (args : List Text) : Except Refusal Options := do
  let s ← Part.program.parse args
  match s.words with
  | none | some [] => throw ⟨.program, required ["command".toList]⟩
  | some (command :: args) =>
    match commands.find? fun c => c.1 == command with
    | none => throw ⟨.program, argumentError "command".toList (invalidChoice (commands.map (·.1)) command)⟩
    | some c =>
      let (request, leftOver) ← requestOf c.2 args
      if (s.leftOver ++ leftOver).isEmpty then
        pure ⟨s.valueOr logLevelFlag Log.Setup.defaultLevel,
          (s.value? logFormatFlag).getD Log.Setup.defaultFormat, request⟩
      else throw ⟨.program, unrecognized (s.leftOver ++ leftOver)⟩

end Accessors.CommandLine
