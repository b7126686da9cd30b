/-!
# File paths

Paths as text, with slashes between their parts. Empty parts and single dots at the end of a path
do not count. The name of a file is split at its last dot into stem and extension, unless the dot
comes first.
-/
namespace TemplateStyles.FilePath

/-- The characters up to the end of the last part that is neither empty nor a dot, backwards. -/
def significantRev : List Char → List Char
  | '/' :: r => significantRev r
  | ['.'] => []
  | '.' :: '/' :: r => significantRev r
  | r => r

/-- The path without the parts at its end that do not count. -/
def significant (path : String) : List Char := (significantRev path.toList.reverse).reverse

/-- What comes before the file name, with its slash. -/
def parent (path : String) : List Char :=
  ((significant path).reverse.dropWhile (· ≠ '/')).reverse

/-- The last part of a path. The part `..` is no name. -/
def fileName? (path : String) : Option (List Char) :=
  match ((significant path).reverse.takeWhile (· ≠ '/')).reverse with
  | [] | ['.', '.'] => none
  | name => some name

/-- Stem and extension of a file name. -/
def splitName (name : List Char) : List Char × Option (List Char) :=
  match name.reverse.dropWhile (· ≠ '.') with
  | [] | ['.'] => (name, none)
  | _ :: stem => (stem.reverse, some (name.reverse.takeWhile (· ≠ '.')).reverse)

def extension? (path : String) : Option String := do
  let name ← fileName? path
  let e ← (splitName name).2
  return String.ofList e

def stem? (path : String) : Option String :=
  (fileName? path).map fun name => String.ofList (splitName name).1

/-- The path with another extension; a path without a file name stays as it is. -/
def replaceExtension (path newExtension : String) : String :=
  match fileName? path with
  | none => path
  | some name =>
    String.ofList (parent path ++ (splitName name).1) ++ "." ++ newExtension

/-- A name inside a directory. -/
def join (directory name : String) : String :=
  if directory = "" ∨ directory.toList.getLast? = some '/' then directory ++ name
  else directory ++ "/" ++ name

end TemplateStyles.FilePath
