import TemplateStyles.FileTree
/-!
# Outcomes of a command

What a command prints, the file it writes, and why it failed if it did. How long something took is
not known here: such a line is completed when it is printed.

| here | in the program |
| --- | --- |
| `Failure`, `Failure.message` | `CompilerError` |
| `Failure.report` | `main` |
-/
namespace TemplateStyles.CommandLine

/-- Why a command failed. -/
inductive Failure where
  /-- A file cannot be read. -/
  | unreadable (path : String) (error : FileError)
  | unreadableConfig (path : String) (error : FileError)
  | unwritable (error : FileError)
  /-- A manifest that is none. -/
  | badManifest (path : String)
  | badJsonConfig
  | badTomlConfig
  /-- A configuration file in neither of the two formats. -/
  | unknownConfig
  /-- A configured name that is no identifier. -/
  | badName (member name : String)
  | unknownFormat (name : String)
  /-- Files with findings, or that cannot be read. -/
  | filesWithIssues (count : Nat)
deriving DecidableEq, Repr

def Failure.message : Failure → String
  | unreadable path e => "File not found: " ++ path ++ ": " ++ e.message
  | unreadableConfig path e => "File not found: Config file " ++ path ++ ": " ++ e.message
  | unwritable e => "IO error: " ++ e.message
  | badManifest path => "Parse error in " ++ path
  | badJsonConfig => "Invalid format: Invalid JSON config"
  | badTomlConfig => "Invalid format: Invalid TOML config"
  | unknownConfig => "Invalid format: Config file must be .json or .toml format"
  | badName member name =>
    "Invalid format: " ++ member ++ " must be a JS identifier, got '" ++ name ++ "'"
  | unknownFormat name => "Invalid format: Unknown output format in config: " ++ name
  | filesWithIssues count => "Invalid format: " ++ toString count ++ " files have issues"

/-- The failure as the program reports it. -/
def Failure.report : Failure → String
  | unwritable e => "IO Error: " ++ e.message
  | e => "Error: " ++ e.message

/-- A printed line. -/
inductive Line where
  | text (s : String)
  /-- A label and the milliseconds that something took. -/
  | duration (label : String)
deriving DecidableEq, Repr

def Line.render (milliseconds : String) : Line → String
  | text s => s ++ "\n"
  | duration label => label ++ milliseconds ++ "ms\n"

/-- A file to write. -/
structure WrittenFile where
  path : String
  text : String
deriving DecidableEq, Repr

structure Outcome where
  output : List Line
  errors : List Line
  failure : Option Failure
  written : Option WrittenFile
deriving DecidableEq, Repr

namespace Outcome

def success (output : List Line) : Outcome := ⟨output, [], none, none⟩

def failed (output : List Line) (failure : Failure) : Outcome := ⟨output, [], some failure, none⟩

def succeeds (o : Outcome) : Bool := o.failure.isNone

end Outcome

end TemplateStyles.CommandLine
