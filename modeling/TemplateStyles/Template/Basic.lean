import TemplateStyles.Marker
/-!
# Templates

A tagged template of a source file: the literal parts, and the expressions between them. It styles
a component or is a style of its own. Its `literal` is the text of the template as a script writes
it, between backquotes: backslashes and backquotes of the literal parts are escaped, and so is every
dollar sign before an opening brace, since it would start an interpolation.

| here | in the program |
| --- | --- |
| `Tag`, `Expression` | `TemplateKind`, `ExpressionSource` |
| `Template`, `Source` | `TemplateSource`, `StyleSource` |
| `Template.css` | `css_text` |
| `Template.escape` | `escape_quasi` |
| `Template.literal` | `original_text` |
-/
namespace TemplateStyles

/-- What a template is tagged with. -/
inductive Tag where
  /-- The styled form of a component, given by its source text. -/
  | styled (component : String)
  /-- A style by itself. -/
  | css
deriving DecidableEq, Repr

/-- An interpolated expression. A function is called with the props. -/
structure Expression where
  source : String
  isFunction : Bool
deriving DecidableEq, Repr

structure Template where
  name : Option String
  tag : Tag
  /-- The literal parts, one more than there are expressions in a complete template. -/
  parts : List String
  expressions : List Expression
deriving DecidableEq, Repr

/-- The templates of one file. -/
structure Source where
  templates : List Template
deriving DecidableEq, Repr

namespace Template

/-- The style block of the template, with markers for its expressions. -/
def css (t : Template) : String := Marker.join t.parts t.expressions.length

/-! ## The written template -/

/-- A literal part as it is written between backquotes. -/
def escapeChars : List Char → List Char
  | [] => []
  | '$' :: '\x7b' :: r => '\\' :: '$' :: '\x7b' :: escapeChars r
  | c :: r => (if c = '\\' ∨ c = '\x60' then ['\\', c] else [c]) ++ escapeChars r

def escape (part : String) : String := String.ofList (escapeChars part.toList)

/-- The escaped parts, with the expressions between them. -/
def body : List String → List Expression → String
  | [], _ => ""
  | [part], _ => escape part
  | part :: rest, [] => escape part ++ body rest []
  | part :: rest, e :: es => escape part ++ "$\x7b" ++ e.source ++ "\x7d" ++ body rest es

/-- The template as it is written, under the given names of the two tags. -/
def literal (t : Template) (styledName cssName : String) : String :=
  let tag := match t.tag with
    | .styled component => styledName ++ "(" ++ component ++ ")"
    | .css => cssName
  tag ++ "\x60" ++ body t.parts t.expressions ++ "\x60"

end Template

end TemplateStyles
