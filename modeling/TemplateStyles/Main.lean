import TemplateStyles.CommandLine.Run
/-!
# The program

Loads the files that a command line names, carries the command line out on them, writes what it
wrote and prints what it printed.
-/
namespace TemplateStyles.Program

open CommandLine

/-- The paths of the files that a request reads or writes, and whether all below them is read. -/
def paths (r : Request) : List (String × Bool) :=
  (r.config.map (·, false)).toList ++
    match r.command with
    | .compile input output _ _ _ => (input, false) :: (output.map (·, false)).toList
    | .check path recursive => [(path, recursive)]
    | .none | .parse _ => []

/-- A file or directory; of a directory that is not read whole only that it is there. -/
partial def loadNode (path : String) (whole : Bool) : IO FileNode := do
  let here := (← IO.currentDir) / path
  if ← here.isDir then
    if whole then
      let entries ← here.readDir
      return .directory (← entries.toList.mapM fun e => do
        return (e.fileName, ← loadNode (FilePath.join path e.fileName) whole))
    else return .directory []
  else return .file (← IO.FS.readBinFile path)

/-- Adds what stands at a path, with the directories that lead to it, as far as it is there. -/
def loadPath (t : FileTree) (path : String) (whole : Bool) : IO FileTree := do
  let (start, names) := t.steps path
  let mut root := t.root
  let mut place := start
  let mut walked := if path.toList.head? = some '/' then "/" else "."
  let mut left := names.length
  for name in names do
    walked := FilePath.join walked name
    left := left - 1
    let isWhole := whole && left = 0
    place := if name = "." then place else if name = ".." then place.dropLast else place ++ [name]
    let here := (← IO.currentDir) / walked
    if (root.node? place).isNone || isWhole then
      if ← here.pathExists then
        root := .put (← loadNode walked isWhole) root place
  return { t with root := root }

/-- The directories that names lead through, one inside the other. -/
def nested : List String → FileNode
  | [] => .directory []
  | name :: rest => .directory [(name, nested rest)]

/-- The directory that the configuration names for the output. -/
def outputDirectory (t : FileTree) (r : Request) : Option String :=
  match r.config.map (Config.load t) with
  | some (.ok config) => config.outputDirectory
  | _ => none

/-- The files that a request may look at. -/
def load (r : Request) : IO FileTree := do
  let current := (← IO.currentDir).toString
  let names := ((current.toList.splitOn '/').map String.ofList).filter (· ≠ "")
  let mut t : FileTree := ⟨nested names, names⟩
  for (path, whole) in paths r do
    t ← loadPath t path whole
  for path in (outputDirectory t r).toList do
    t ← loadPath t path false
  return t

def printLines (print : String → IO Unit) (elapsed : Nat) (lines : List Line) : IO Unit :=
  lines.forM fun l => print (l.render (toString elapsed))

end TemplateStyles.Program

open TemplateStyles TemplateStyles.CommandLine TemplateStyles.Program

def main (arguments : List String) : IO UInt32 := do
  let start ← IO.monoMsNow
  match readRequest arguments with
  | .error .help => IO.print usageText; return 0
  | .error .version => IO.print versionText; return 0
  | .error .invalid => IO.eprint usageText; return 2
  | .ok r =>
    let o := runRequest (← load r) r
    try
      if let some f := o.written then IO.FS.writeFile f.path f.text
    catch e =>
      IO.eprintln ("IO Error: " ++ toString e)
      return 1
    let elapsed := (← IO.monoMsNow) - start
    printLines (IO.print ·) elapsed o.output
    printLines (IO.eprint ·) elapsed o.errors
    match o.failure with
    | none => return 0
    | some e =>
      IO.eprintln e.report
      return 1
