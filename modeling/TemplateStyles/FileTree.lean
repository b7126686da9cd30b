import TemplateStyles.FilePath
/-!
# File trees

Files and directories by name, and a directory that relative paths start from. A path is followed
part by part: each part but the last has to name a directory, a dot stays, and two dots go up.
A path that ends in a slash names a directory.
-/
namespace TemplateStyles

inductive FileNode where
  | file (content : ByteArray)
  | directory (entries : List (String × FileNode))

/-- Why a file cannot be read or written. -/
inductive FileError where
  | notFound
  | notDirectory
  | isDirectory
  | notText
deriving DecidableEq, Repr

def FileError.message : FileError → String
  | notFound => "No such file or directory (os error 2)"
  | notDirectory => "Not a directory (os error 20)"
  | isDirectory => "Is a directory (os error 21)"
  | notText => "stream did not contain valid UTF-8"

structure FileTree where
  root : FileNode
  /-- The names that lead from the root to the directory that relative paths start from. -/
  current : List String

namespace FileNode

/-- The node that names lead to. -/
def node? : FileNode → List String → Option FileNode
  | n, [] => some n
  | .file _, _ :: _ => none
  | .directory entries, name :: rest =>
    (entries.lookup name).bind fun n => n.node? rest

/-- Entries with one of them replaced, or added at the end. -/
def putEntry (name : String) (n : FileNode) : List (String × FileNode) → List (String × FileNode)
  | [] => [(name, n)]
  | (name', n') :: r => if name' = name then (name, n) :: r else (name', n') :: putEntry name n r

/-- Puts `n` where names lead to from a node. Only the last of them may be new. -/
def put (n : FileNode) : FileNode → List String → FileNode
  | _, [] => n
  | .file content, _ :: _ => .file content
  | .directory entries, [name] => .directory (putEntry name n entries)
  | .directory entries, name :: rest =>
    match entries.lookup name with
    | none => .directory entries
    | some inner => .directory (putEntry name (put n inner rest) entries)

def isDirectory : FileNode → Bool
  | .directory _ => true
  | .file _ => false

/-! ## Files below a directory -/

mutual

/-- The paths of all files below a node that stands under a path. -/
def filesAt (path : String) : FileNode → List String
  | .file _ => [path]
  | .directory entries => filesOf path entries

def filesOf (path : String) : List (String × FileNode) → List String
  | [] => []
  | (name, n) :: r => filesAt (FilePath.join path name) n ++ filesOf path r

end

end FileNode

namespace FileTree

/-- The parts of a path: where it starts, and the names to follow. A slash at the end is one more
dot. -/
def steps (t : FileTree) (path : String) : List String × List String :=
  let parts := (path.toList.splitOn '/').map String.ofList
  let names := parts.filter (· ≠ "")
  (if parts.head? = some "" then [] else t.current,
   if parts.getLast? = some "" then names ++ ["."] else names)

/-- The directory or file that stands at a place. -/
def node? (t : FileTree) (place : List String) : Option FileNode := t.root.node? place

/-- Follows names from a place. -/
def follow (t : FileTree) (place : List String) : List String → Except FileError (List String)
  | [] => if (t.node? place).isSome then .ok place else .error .notFound
  | name :: rest =>
    match t.node? place with
    | none => .error .notFound
    | some (.file _) => .error .notDirectory
    | some (.directory _) =>
      if name = "." then t.follow place rest
      else if name = ".." then t.follow place.dropLast rest
      else t.follow (place ++ [name]) rest

/-- The place that a path names. -/
def locate (t : FileTree) (path : String) : Except FileError (List String) :=
  if path = "" then .error .notFound else t.follow (t.steps path).1 (t.steps path).2

def isDirectory (t : FileTree) (path : String) : Bool :=
  match t.locate path with
  | .ok place => (t.node? place).any (·.isDirectory)
  | .error _ => false

/-- The text of a file. -/
def readText (t : FileTree) (path : String) : Except FileError String := do
  let place ← t.locate path
  match t.node? place with
  | none => throw .notFound
  | some (.directory _) => throw .isDirectory
  | some (.file content) =>
    match String.fromUTF8? content with
    | none => throw .notText
    | some text => return text

/-- The paths of all files below a directory, as the path of the directory leads to them. -/
def filesBelow (t : FileTree) (path : String) : List String :=
  match t.locate path with
  | .error _ => []
  | .ok place =>
    match t.node? place with
    | some (.directory entries) => FileNode.filesOf path entries
    | _ => []

/-- The place that a path to write to names: a file, there or not, in a directory that is there. -/
def target (t : FileTree) (path : String) : Except FileError (List String) := do
  if path = "" then throw .notFound
  let namesDirectory := path.toList.getLast? = some '/'
  let (start, names) := t.steps path
  let names := if namesDirectory then names.dropLast else names
  match names.getLast? with
  | none => throw .isDirectory
  | some name =>
    let parent ← t.follow start names.dropLast
    if !(t.node? parent).any (·.isDirectory) then throw .notDirectory
    let place := parent ++ [name]
    if namesDirectory ∨ name = "." ∨ name = ".." ∨ (t.node? place).any (·.isDirectory) then
      throw .isDirectory
    return place

def writeText (t : FileTree) (path text : String) : Except FileError FileTree := do
  let place ← t.target path
  return { t with root := .put (.file text.toUTF8) t.root place }

end FileTree

end TemplateStyles
