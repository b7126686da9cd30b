import TemplateStyles.Options
import TemplateStyles.Script.StyleObject
import TemplateStyles.Sheet.Emission
import TemplateStyles.Template.Basic
/-!
# Code for a template

The code that takes the place of a template: a declaration of its style sheet, which has to come
first, and a call of the tag's helper with the metadata as an object literal.

| here | in the program |
| --- | --- |
| `Replacement` | `GeneratedTemplate` |
| `Script.sheetDeclaration` | `style_sheet_declaration` |
| `Script.patchMember`, `Script.patchFunction` | `dynamic_patch` |
| `Script.callee`, `Script.replacement` | `generate` |
-/
namespace TemplateStyles

structure Replacement where
  /-- The declaration of the style sheet. -/
  hoisted : Option String
  /-- What the template is replaced by. -/
  expression : String
deriving DecidableEq, Repr

namespace Script

/-- The declaration of a style sheet. -/
def sheetDeclaration (o : Options) (r : Registration) : Except GenerationError String := do
  let object ← styleObject r.properties
  return "const " ++ r.id ++ " = " ++ o.sheetName ++ ".create(\x7b " ++ objectKey r.key ++ ": " ++
    object ++ " \x7d);"

/-- The value of an expression: a function is called, a path stands by itself. -/
def expressionValue (parameter source : String) (isFunction : Bool) : String :=
  if isFunction then "(" ++ source ++ ")(" ++ parameter ++ ")"
  else if isPath source then source
  else "(" ++ source ++ ")"

/-- The member of a patch for one entry. -/
def patchMember (parameter : String) (expressions : List Expression) (e : PatchEntry) :
    Except GenerationError String :=
  match expressions[e.expression]? with
  | none => .error (.outOfRange e.expression e.property expressions.length)
  | some x =>
    let source := Text.trim x.source
    if source = "" then .error (.blankExpression e.expression e.property)
    else .ok (objectKey e.property ++ ": " ++ expressionValue parameter source x.isFunction)

/-- The function that evaluates the dynamic properties. -/
def patchFunction (expressions : List Expression) (p : PatchBuilder) :
    Except GenerationError String := do
  let members ← p.entries.mapM (patchMember p.parameter expressions)
  return "(" ++ p.parameter ++ ") => (\x7b " ++ ", ".intercalate members ++ " \x7d)"

/-- The helper of a tag, with the component it is applied to. -/
def callee (o : Options) : Tag → Except GenerationError String
  | .styled component =>
    let component := Text.trim component
    if component = "" then .error .blankComponent
    else .ok (o.styledName ++ "(" ++ component ++ ")")
  | .css => .ok o.cssName

/-- The metadata members that a style sheet gives. -/
def sheetMembers (r : Registration) : List String :=
  ["compiledStyles: " ++ r.id, "styleKeys: [" ++ Json.Quoted.encode r.key ++ "]"]

/-- The code for a template with these instructions. -/
def replacement (o : Options) (t : Template) (i : Instructions) :
    Except GenerationError Replacement := do
  if i.isEmpty then throw .nothingToDo
  let hoisted ← i.registration.mapM (sheetDeclaration o)
  let patch ← i.patch.mapM (patchFunction t.expressions)
  let callee ← callee o t.tag
  let members := (i.registration.map sheetMembers).getD [] ++
    (patch.map ("getDynamicPatch: " ++ ·)).toList ++
    if o.marksDebug then ["debug: true"] else []
  return ⟨hoisted, callee ++ ".__withStyles(\x7b " ++ ", ".intercalate members ++ " \x7d)"⟩

end Script

end TemplateStyles
