import TemplateStyles.CommandLine.Arguments
import TemplateStyles.CommandLine.Commands
import TemplateStyles.CommandLine.Config
/-!
# Command lines

A command line has options for all commands, a command, and the options and operands of the
command. The configuration file is read before the command is carried out; only `compile` uses it.

| here | in the program |
| --- | --- |
| `programSpec`, `compileSpec`, `checkSpec`, `parseSpec` | `build_cli` |
| `compileOptions` | `build_compiler_options` |
| `runRequest` | `run` |
-/
namespace TemplateStyles.CommandLine

/-- What a command line asks for. -/
inductive Command where
  | none
  | compile (input : String) (output : Option String) (format : Option OutputFormat)
      (marksDebug showsStatistics : Bool)
  | check (path : String) (recursive : Bool)
  | parse (css : String)
deriving DecidableEq, Repr

structure Request where
  config : Option String
  command : Command
deriving DecidableEq, Repr

/-! ## Reading the arguments -/

def flag (name : String) (letter : Option Char) : OptionSpec := ⟨name, letter, false, false, []⟩

def valued (name : String) (letter : Option Char) : OptionSpec := ⟨name, letter, true, false, []⟩

def programSpec : CommandSpec :=
  ⟨[valued "config" (some 'c'), { flag "verbose" (some 'v') with repeats := true }], true, 0⟩

def compileSpec : CommandSpec :=
  ⟨[valued "output" (some 'o'),
    { valued "format" (some 'f') with values := ["js", "json", "debug"] },
    flag "debug" (some 'd'), flag "stats" Option.none], false, 1⟩

def checkSpec : CommandSpec := ⟨[flag "recursive" (some 'r')], false, 1⟩

def parseSpec : CommandSpec := ⟨[], false, 1⟩

def commandNames : List String := ["compile", "check", "parse", "help"]

/-- All of a command's arguments, with the one operand that it has to have. -/
def CommandSpec.readAll (s : CommandSpec) (arguments : List String) :
    Except Usage (Given × String) := do
  let (g, _) ← s.read (fun _ => false) .empty arguments
  match g.operands with
  | [operand] => return (g, operand)
  | _ => throw .invalid

def readCompile (arguments : List String) : Except Usage Command := do
  let (g, input) ← compileSpec.readAll arguments
  return .compile input (g.value? "output") ((g.value? "format").bind OutputFormat.ofName?)
    (g.has "debug") (g.has "stats")

def readCheck (arguments : List String) : Except Usage Command := do
  let (g, path) ← checkSpec.readAll arguments
  return .check path (g.has "recursive")

def readParse (arguments : List String) : Except Usage Command := do
  let (_, css) ← parseSpec.readAll arguments
  return .parse css

/-- A command by its name. Help is given on one command at most. -/
def readCommand : List String → Except Usage Command
  | [] => .ok .none
  | "compile" :: arguments => readCompile arguments
  | "check" :: arguments => readCheck arguments
  | "parse" :: arguments => readParse arguments
  | "help" :: [] => .error .help
  | "help" :: [name] => .error (if name ∈ commandNames then .help else .invalid)
  | _ :: _ => .error .invalid

def readRequest (arguments : List String) : Except Usage Request := do
  let (g, rest) ← programSpec.read (· ∈ commandNames) .empty arguments
  return ⟨g.value? "config", ← readCommand rest⟩

/-! ## Carrying it out -/

/-- The options of a compilation: the command line counts before the configuration. -/
def compileOptions (c : Config) (format : Option OutputFormat) (marksDebug : Bool) :
    Except Failure Options := do
  let o ← c.options
  return { o with format := format.getD o.format, marksDebug := o.marksDebug || marksDebug }

def runCommand (files : FileTree) (config : Config) : Command → Outcome
  | .none =>
    .success [.text "No subcommand specified. Use --help for usage information."]
  | .compile input output format marksDebug showsStatistics =>
    match compileOptions config format marksDebug with
    | .error e => .failed [] e
    | .ok o =>
      let output := output.getD (defaultOutput input config.outputDirectory o.format)
      compile files input output o showsStatistics
  | .check path recursive => check files path recursive
  | .parse css => parse css

def runRequest (files : FileTree) (r : Request) : Outcome :=
  match r.config with
  | none => runCommand files .empty r.command
  | some path =>
    match Config.load files path with
    | .error e => .failed [] e
    | .ok config => runCommand files config r.command

/-- What a command line does when it finds these files. -/
def run (files : FileTree) (arguments : List String) : Except Usage Outcome :=
  (readRequest arguments).map (runRequest files)

/-! ## Usage -/

def versionText : String := "kstyc 0.1.0\n"

def usageText : String :=
  "Usage: kstyc [-c FILE] [-v] COMMAND\n\n" ++
  "Commands:\n" ++
  "  compile INPUT [-o FILE] [-f js|json|debug] [-d] [--stats]\n" ++
  "  check INPUT [-r]\n" ++
  "  parse BLOCK\n"

end TemplateStyles.CommandLine
