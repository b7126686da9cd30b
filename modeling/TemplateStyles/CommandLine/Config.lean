import TemplateStyles.CommandLine.Outcome
import TemplateStyles.Json.Reader
import TemplateStyles.Json.Written
import TemplateStyles.Options
import TemplateStyles.Script.StyleObject
import TemplateStyles.Toml.Reader
/-!
# Configuration files

Options from a JSON or TOML file. Every member may be missing; of an array all have to be there.
The names that stand in generated scripts have to be identifiers.

| here | in the program |
| --- | --- |
| `Config` | `ConfigFile` |
| `Config.load` | `load` |
| `Config.options` | `apply` |
-/
namespace TemplateStyles.CommandLine

structure Config where
  marksDebug : Option Bool
  helperModule : Option String
  sheetName : Option String
  sheetModule : Option String
  styledName : Option String
  cssName : Option String
  format : Option String
  outputDirectory : Option String
deriving DecidableEq, Repr

namespace Config

def empty : Config := ⟨none, none, none, none, none, none, none, none⟩

instance : Inhabited Config := ⟨empty⟩

def memberNames : List String :=
  ["debug", "debugMetadata", "importName", "styleSheetName", "styleSheetImport", "styledName",
   "cssName", "outputFormat", "outputDirectory"]

/-- The configuration whose members are read by name. The member `debug` has to be right, and says
nothing about what is generated. -/
def ofMembers? (bool? : String → Option (Option Bool)) (text? : String → Option (Option String)) :
    Option Config := do
  let _ ← bool? "debug"
  return {
    marksDebug := ← bool? "debugMetadata"
    helperModule := ← text? "importName"
    sheetName := ← text? "styleSheetName"
    sheetModule := ← text? "styleSheetImport"
    styledName := ← text? "styledName"
    cssName := ← text? "cssName"
    format := ← text? "outputFormat"
    outputDirectory := ← text? "outputDirectory" }

/-- Whether a document is no array, or has all members. -/
def isComplete : Json.Written → Bool
  | .arr items => items.length == memberNames.length
  | _ => true

def ofWritten? (w : Json.Written) : Option Config := do
  if !isComplete w then none
  let members ← w.record? memberNames
  ofMembers? (fun name => Json.Written.defaulted? name none (Json.Written.nullable? Json.Written.bool?) members)
    (fun name => Json.Written.defaulted? name none (Json.Written.nullable? Json.Written.text?) members)

def tomlBool? (members : List (String × Toml.Value)) (name : String) : Option (Option Bool) :=
  match members.lookup name with
  | none => some none
  | some (.bool b) => some (some b)
  | some _ => none

def tomlText? (members : List (String × Toml.Value)) (name : String) : Option (Option String) :=
  match members.lookup name with
  | none => some none
  | some (.text s) => some (some s)
  | some _ => none

def ofToml? (text : String) : Option Config :=
  (Toml.read? text).bind fun members => ofMembers? (tomlBool? members) (tomlText? members)

def hasEnding (path ending : String) : Bool := ending.toList.isSuffixOf path.toList

/-- The configuration in a file; the end of its name says what it is written in. -/
def load (files : FileTree) (path : String) : Except Failure Config :=
  match files.readText path with
  | .error e => .error (.unreadableConfig path e)
  | .ok text =>
    if hasEnding path ".json" then
      match (Json.read? text).bind ofWritten? with
      | none => .error .badJsonConfig
      | some c => .ok c
    else if hasEnding path ".toml" then
      match ofToml? text with
      | none => .error .badTomlConfig
      | some c => .ok c
    else .error .unknownConfig

/-- A configured name, or the standard one. -/
def name (member : String) (configured : Option String) (standard : String) :
    Except Failure String :=
  match configured with
  | none => .ok standard
  | some name =>
    if Script.isIdentifier name then .ok name else .error (.badName member name)

/-- A configured format, in any case, or the standard one. -/
def outputFormat (configured : Option String) (standard : OutputFormat) :
    Except Failure OutputFormat :=
  match configured with
  | none => .ok standard
  | some name =>
    match OutputFormat.ofName? (String.ofList (name.toList.map Char.toLower)) with
    | none => .error (.unknownFormat name)
    | some format => .ok format

/-- The options that a configuration gives. -/
def options (c : Config) : Except Failure Options := do
  let o := Options.standard
  let sheetName ← name "styleSheetName" c.sheetName o.sheetName
  let styledName ← name "styledName" c.styledName o.styledName
  let cssName ← name "cssName" c.cssName o.cssName
  let format ← outputFormat c.format o.format
  return ⟨c.helperModule.getD o.helperModule, c.sheetModule.getD o.sheetModule, sheetName,
    styledName, cssName, c.marksDebug.getD o.marksDebug, format⟩

end Config

end TemplateStyles.CommandLine
