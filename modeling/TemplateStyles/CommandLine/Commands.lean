import TemplateStyles.CommandLine.Outcome
import TemplateStyles.StyleModule.Output
import TemplateStyles.StyleModule.Statistics
import TemplateStyles.Template.File
/-!
# The commands

* `compile` compiles one file and writes the result beside it, into the configured directory, or
  where it is told.
* `check` reads a file, or all template files below a directory, and lists what is wrong with their
  templates. Every finding and every template that is left unchanged is an issue.
* `parse` prints the rule of one declaration block as a document, and what was noticed in the block,
  if anything was, as a dump.

| here | in the program |
| --- | --- |
| `defaultOutput` | `default_output_path` |
| `statisticsLines` | `print_detailed_stats` |
| `compileFile` | `compile_file_with_options` |
| `compile` | `compile_single_file` |
| `checkFile` | `check_single_file` |
| `checkDirectory` | `check_directory_recursive` |
| `check` | `handle_check_command` |
| `parse` | `handle_parse_command` |
-/
namespace TemplateStyles.CommandLine

/-! ## `compile` -/

/-- The extension of an output file. -/
def extension : OutputFormat → String
  | .script => "js"
  | .document => "compiled.json"
  | .dump => "debug.txt"

/-- Where the output goes if nothing else is said. -/
def defaultOutput (input : String) (directory : Option String) (format : OutputFormat) : String :=
  let file := FilePath.replaceExtension input (extension format)
  match directory, FilePath.fileName? file with
  | some directory, some name => FilePath.join directory (String.ofList name)
  | _, _ => file

/-- A line with a label and a number. -/
def countLine (label : String) (count : Nat) : Line := .text (label ++ toString count)

def statisticsLines (s : Statistics) (inputSize outputSize : Nat) : List Line :=
  [.text "\n📊 Detailed Compilation Statistics:",
   .text ("   Source size: " ++ toString inputSize ++ " bytes"),
   .text ("   Output size: " ++ toString outputSize ++ " bytes"),
   .duration "   Compile time: ",
   .text "\n   Template breakdown:",
   countLine "     Templates: " s.templates,
   countLine "     Transformed: " s.rewritten,
   countLine "     Passed through: " s.kept,
   countLine "     Stylesheets: " s.sheets,
   countLine "     Static properties: " s.static,
   countLine "     Dynamic properties: " s.dynamic] ++
  if s.skipped = 0 then [] else [countLine "     Skipped declarations: " s.skipped]

def successLines (s : Statistics) (outputSize : Nat) : List Line :=
  [.text "✅ Compilation successful!",
   .text ("   Templates: " ++ toString s.rewritten ++ " transformed, " ++ toString s.kept ++
     " left unchanged"),
   .text ("   Output: " ++ toString outputSize ++ " bytes"),
   .duration "   Time: "] ++
  if s.kept = 0 then [] else
    [.text "   ⚠️  Unchanged templates fall back to runtime parsing"]

/-- Compiles a file: the lines to print, and what to write. -/
def compileFile (files : FileTree) (input output : String) (o : Options) (showsStatistics : Bool) :
    Except Failure (List Line × WrittenFile) := do
  let text ← (files.readText input).mapError (.unreadable input)
  match Source.ofFile? text input with
  | none => throw (.badManifest input)
  | some source =>
    let m := source.compile o input
    let written := m.output o
    let _ ← (files.target output).mapError .unwritable
    let size := written.utf8ByteSize
    return (successLines m.statistics size ++
      if showsStatistics then statisticsLines m.statistics text.utf8ByteSize size else [],
      ⟨output, written⟩)

def compile (files : FileTree) (input output : String) (o : Options) (showsStatistics : Bool) :
    Outcome :=
  let first := Line.text ("🔨 Compiling " ++ input ++ " -> " ++ output)
  match compileFile files input output o showsStatistics with
  | .ok (lines, written) => ⟨first :: lines, [], none, some written⟩
  | .error e => .failed [first] e

/-! ## `check`: one file -/

/-- What a template is called in a report. -/
def templateLabel (index : Nat) (t : CompiledTemplate) : String :=
  t.name.getD ("template " ++ toString index)

def warningLine (label message : String) : Line :=
  .text ("   ⚠️  " ++ label ++ ": " ++ message)

def templateLines (index : Nat) (t : CompiledTemplate) : List Line :=
  let label := templateLabel index t
  t.findings.skipped.map (fun s => warningLine label
    ("skipped malformed declaration '" ++ s ++ "'")) ++
  t.findings.unknown.map (fun s => warningLine label
    ("'" ++ s ++ "' is not a known style property")) ++
  t.findings.ambiguous.map (fun s => warningLine label
    ("'" ++ s ++ "' kept as a single value")) ++
  t.findings.relocated.map (fun s => Line.text
    ("   ℹ️  " ++ label ++ ": '" ++ s ++ "' moved to dynamic styles")) ++
  if t.outcome.isRewritten then [] else [warningLine label "left unchanged"]

/-- The issues of a template. -/
def templateIssues (t : CompiledTemplate) : Nat :=
  t.findings.skipped.length + t.findings.unknown.length + t.findings.ambiguous.length +
    if t.outcome.isRewritten then 0 else 1

def linesFrom : Nat → List CompiledTemplate → List Line
  | _, [] => []
  | index, t :: ts => templateLines index t ++ linesFrom (index + 1) ts

/-- A report on a file: how many issues it has, or why it cannot be checked. -/
structure FileReport where
  lines : List Line
  issues : Except Failure Nat

/-- The module that a file compiles to with the standard options. -/
def checkedModule (files : FileTree) (path : String) : Except Failure StyleModule := do
  let text ← (files.readText path).mapError (.unreadable path)
  match Source.ofFile? text path with
  | none => throw (.badManifest path)
  | some source => return source.compile .standard path

def verdictLine (path : String) (issues : Nat) : Line :=
  .text (if issues = 0 then "✅ " ++ path ++ " - No issues found"
    else "❌ " ++ path ++ " - " ++ toString issues ++ " issue(s)")

def checkFile (files : FileTree) (path : String) : FileReport :=
  let first := Line.text ("🔍 Checking " ++ path)
  match checkedModule files path with
  | .error e => ⟨[first], .error e⟩
  | .ok m =>
    let issues := m.total templateIssues
    ⟨first :: linesFrom 0 m.templates ++ [verdictLine path issues], .ok issues⟩

/-! ## `check`: a directory -/

def isTemplatePath (path : String) : Bool :=
  (FilePath.extension? path).any fun e => e = "json" || e = "css"

/-- The lines of a file's report, and the reason if it cannot be checked. -/
def FileReport.allLines (r : FileReport) (path : String) : List Line :=
  r.lines ++ match r.issues with
    | .ok _ => []
    | .error e => [.text ("❌ " ++ path ++ " - " ++ e.message)]

def FileReport.isClean (r : FileReport) : Bool :=
  match r.issues with
  | .ok issues => issues == 0
  | .error _ => false

/-- A part of a whole in percent with one place, rounded as a double. -/
def percent (part whole : Nat) : String :=
  let ratio := (Magnitude.nearest? part whole).getD .zero
  let scaled := (Magnitude.nearest? (ratio.numerator * 100) Magnitude.denominator).getD .zero
  let tenths := Magnitude.roundDiv (10 * scaled.numerator) Magnitude.denominator
  toString (tenths / 10) ++ "." ++ toString (tenths % 10)

def summaryLines (total bad : Nat) : List Line :=
  [.text "\n📊 Check Summary:",
   .text ("   Total files: " ++ toString total),
   .text ("   Files with issues: " ++ toString bad)] ++
  if total = 0 then [] else [.text ("   Clean rate: " ++ percent (total - bad) total ++ "%")]

/-- The template files below a directory. -/
def templateFiles (files : FileTree) (directory : String) : List String :=
  (files.filesBelow directory).filter isTemplatePath

def checkDirectory (files : FileTree) (directory : String) : Outcome :=
  let paths := templateFiles files directory
  let bad := paths.countP fun path => !(checkFile files path).isClean
  let lines := paths.flatMap (fun path => (checkFile files path).allLines path) ++
    summaryLines paths.length bad
  if bad = 0 then .success lines else .failed lines (.filesWithIssues bad)

def check (files : FileTree) (path : String) (recursive : Bool) : Outcome :=
  if recursive && files.isDirectory path then checkDirectory files path
  else
    let r := checkFile files path
    match r.issues with
    | .ok _ => .success r.lines
    | .error e => .failed r.lines e

/-! ## `parse` -/

def parse (css : String) : Outcome :=
  let b := Block.ofText css
  ⟨[.text b.rule.toJson.pretty],
   if b.findings.isClean then [] else [.text b.findings.dump.text], none, none⟩

end TemplateStyles.CommandLine
