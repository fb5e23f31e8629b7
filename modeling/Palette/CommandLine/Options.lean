import Palette.Command.Builtin
import Palette.CommandLine.Grammar
import Palette.Number.Integer

/-!
# The options of the program

The program takes general options and a command; each command takes options and
operands of its own.
-/

namespace Palette
namespace CommandLine

/-- The options and operands of a command.  A number is missing if its option was
given without a value. -/
structure Settings where
  scheme : Option String
  json : Bool
  template : Option String
  output : Option String
  size : Option Int
  columns : Option Int
  fields : List String
deriving DecidableEq

def Settings.default : Settings where
  scheme := none
  json := false
  template := none
  output := none
  size := some 64
  columns := some 8
  fields := []

inductive Request where
  /-- The documentation of a command, or the list of the commands. -/
  | help (topic : Option String)
  | work (command : Builtin) (settings : Settings)
deriving DecidableEq

structure Invocation where
  envFile : Option String
  verbose : Bool
  request : Option Request
deriving DecidableEq

def Invocation.default : Invocation :=
  ⟨none, false, none⟩

/-! ## Usage -/

def mainUsage : String :=
  "\n".intercalate
    [ "usage: base16-scheme [-h] [--env-file PATH] [-v] COMMAND ...",
      "",
      "Render base16 color-scheme templates and inspect schemes.",
      "",
      "Commands: field, help, inspect, render, swatch",
      "",
      "  -h, --help       Show this help and exit",
      "  --env-file PATH  Path to .env file (default: walk up from cwd to .git boundary)",
      "  -v, --verbose    Log debug output to stderr",
      "" ]

def commandUsage (words : String) : String :=
  "usage: base16-scheme " ++ words ++ "\n"

def helpUsage : String :=
  commandUsage "help [-h] [topic]"

def usage : Builtin → String
  | .field => commandUsage "field [-h] [-s SCHEME] [-j] FIELD [FIELD ...]"
  | .inspect => commandUsage "inspect [-h] [-s SCHEME] [-j]"
  | .render => commandUsage "render [-h] [-s SCHEME] [-j] [-o OUTPUT] [template]"
  | .swatch => commandUsage "swatch [-h] [-s SCHEME] [-j] [--size SIZE] [--columns COLUMNS] output"

/-! ## Options -/

def helpOption : OptionRule α :=
  ⟨["-h", "--help"], .help⟩

def commonOptions : List (OptionRule Settings) :=
  [ helpOption,
    ⟨["-s", "--scheme"], .value fun path s => some { s with scheme := path }⟩,
    ⟨["-j", "--json"], .flag fun s => { s with json := true }⟩ ]

def outputOption : OptionRule Settings :=
  ⟨["-o", "--output"], .value fun path s => some { s with output := path }⟩

/-- The number that an option is given, if any.  Other values are refused. -/
def readNumber : Option String → Option (Option Int)
  | none => some none
  | some text => (Integer.ofChars? text.toList).map some

def sizeOption : OptionRule Settings :=
  ⟨["--size"], .value fun given s =>
    (readNumber given).map fun size => { s with size := size }⟩

def columnsOption : OptionRule Settings :=
  ⟨["--columns"], .value fun given s =>
    (readNumber given).map fun columns => { s with columns := columns }⟩

def extraOptions : Builtin → List (OptionRule Settings)
  | .render => [outputOption]
  | .swatch => [sizeOption, columnsOption]
  | _ => []

def operands? : Builtin → Option (Operands Settings)
  | .field => some ⟨.many, fun names s => .ok ({ s with fields := names }, [])⟩
  | .inspect => none
  | .render => some ⟨.optional, fun paths s => .ok ({ s with template := paths.head? }, [])⟩
  | .swatch => some ⟨.one, fun paths s => .ok ({ s with output := paths.head? }, [])⟩

/-- The grammar of a command. -/
def grammar (c : Builtin) : Grammar Settings where
  usage := usage c
  options := commonOptions ++ extraOptions c
  operands? := operands? c

/-- The grammar of the `help` command. -/
def helpGrammar : Grammar (Option String) where
  usage := helpUsage
  options := [helpOption]
  operands? := some ⟨.optional, fun topics _ => .ok (topics.head?, [])⟩

/-- Reads the name of a command and what follows it. -/
def takeCommand (words : List String) (i : Invocation) : Except Stop (Invocation × List String) :=
  match words with
  | [] => .ok (i, [])
  | name :: rest =>
      if name = "help" then
        (helpGrammar.parse none rest).map fun (topic, surplus) =>
          ({ i with request := some (.help topic) }, surplus)
      else
        match Builtin.ofName? name with
        | .error _ => .error (.misuse mainUsage)
        | .ok c =>
            ((grammar c).parse .default rest).map fun (settings, surplus) =>
              ({ i with request := some (.work c settings) }, surplus)

def mainGrammar : Grammar Invocation where
  usage := mainUsage
  options :=
    [ helpOption,
      ⟨["--env-file"], .value fun path i => some { i with envFile := path }⟩,
      ⟨["-v", "--verbose"], .flag fun i => { i with verbose := true }⟩ ]
  operands? := some ⟨.command, takeCommand⟩

/-- Reads a whole command line. -/
def parse (arguments : List String) : Except Stop Invocation :=
  match mainGrammar.parse .default arguments with
  | .error stop => .error stop
  | .ok (invocation, surplus) =>
      if surplus.isEmpty then .ok invocation else .error (.misuse mainUsage)

end CommandLine
end Palette
