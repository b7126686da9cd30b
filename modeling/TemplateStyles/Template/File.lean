import TemplateStyles.FilePath
import TemplateStyles.Json.Printer
import TemplateStyles.Json.Reader
import TemplateStyles.Json.Written
import TemplateStyles.Script.StyleObject
import TemplateStyles.Template.Basic
/-!
# Template files

A file whose extension is `json`, in any case, is a manifest, the JSON form of templates. A template
with a component is a styled one whatever its kind says, and a styled template without component
has an empty one. Expressions are taken for plain values unless they are marked as functions.

Every other file is one style block, a css template under the file's name.

| here | in the program |
| --- | --- |
| `Template.Kind`, `Template.ofWritten?`, `Template.toJson` | `TemplateRecord` |
| `Source.ofFile?` | `parse_source` |
-/
namespace TemplateStyles

/-! ## Manifests -/

open Json.Written (required? defaulted? text? bool? list? nullable? choice?)

namespace Expression

def memberNames : List String := ["source", "function"]

def ofWritten? (w : Json.Written) : Option Expression := do
  let members ← w.record? memberNames
  let source ← required? "source" text? members
  let isFunction ← defaulted? "function" false bool? members
  return ⟨source, isFunction⟩

def toJson (e : Expression) : Json :=
  .obj [("source", .str e.source), ("function", .bool e.isFunction)]

end Expression

namespace Template

/-- The kinds of template by name. -/
inductive Kind where
  | styled
  | css
deriving DecidableEq, Repr

def Kind.ofName? (name : String) : Option Kind :=
  if name = "styled" then some .styled else if name = "css" then some .css else none

def Kind.name : Kind → String
  | styled => "styled"
  | css => "css"

def tagOf : Kind → Option String → Tag
  | _, some component => .styled component
  | .styled, none => .styled ""
  | .css, none => .css

def kindOf : Tag → Kind
  | .styled _ => .styled
  | .css => .css

def memberNames : List String := ["name", "kind", "component", "quasis", "expressions"]

def ofWritten? (w : Json.Written) : Option Template := do
  let members ← w.record? memberNames
  let name ← defaulted? "name" none (nullable? text?) members
  let kind ← defaulted? "kind" .css (choice? Kind.ofName?) members
  let component ← defaulted? "component" none (nullable? text?) members
  let parts ← required? "quasis" (list? text?) members
  let expressions ← defaulted? "expressions" [] (list? Expression.ofWritten?) members
  return ⟨name, tagOf kind component, parts, expressions⟩

def component? : Tag → Option String
  | .styled component => some component
  | .css => none

def toJson (t : Template) : Json :=
  .obj ((t.name.map fun n => ("name", .str n)).toList ++
    ("kind", .str (kindOf t.tag).name) ::
    (component? t.tag).toList.map (fun c => ("component", .str c)) ++
    [("quasis", .arr (t.parts.map .str)),
     ("expressions", .arr (t.expressions.map Expression.toJson))])

end Template

namespace Source

def ofWritten? (w : Json.Written) : Option Source := do
  let members ← w.record? ["templates"]
  let templates ← required? "templates" (list? Template.ofWritten?) members
  return ⟨templates⟩

def toJson (s : Source) : Json := .obj [("templates", .arr (s.templates.map Template.toJson))]

/-- The templates of a manifest, from its text. -/
def ofManifest? (text : String) : Option Source := (Json.read? text).bind ofWritten?

def manifest (s : Source) : String := s.toJson.compact

/-! ## Files -/

def isManifestPath (path : String) : Bool :=
  (FilePath.extension? path).any fun e => e.toList.map Char.toLower = "json".toList

/-- The name for the template of a style file: what comes before the first dot, if it is an
identifier. -/
def templateName? (path : String) : Option String :=
  (FilePath.stem? path).bind fun stem =>
    let name := String.ofList (stem.toList.takeWhile (· ≠ '.'))
    if Script.isIdentifier name then some name else none

/-- A whole text as one css template. -/
def ofBlock (text path : String) : Source := ⟨[⟨templateName? path, .css, [text], []⟩]⟩

/-- The templates of a file; nothing if it is a manifest and cannot be read as one. -/
def ofFile? (text path : String) : Option Source :=
  if isManifestPath path then ofManifest? text else some (ofBlock text path)

end Source

end TemplateStyles
