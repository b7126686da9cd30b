import TemplateStyles.Block.Printer
import TemplateStyles.StyleModule.Basic
/-!
# Output of a compilation

What is written for a compiled module, in the format that the options ask for.

* `StyleModule.script`: imports of what the code uses, the declarations of all style sheets, and one
  exported constant for each template, under the template's name or one made from its position.
* `StyleModule.document`: JSON, two blanks deeper at each level, with the instructions of each
  template, what was noticed while reading it, and the code that stands for it.
* `StyleModule.dump`: the whole module as a value dump.

| here | in the program |
| --- | --- |
| `StyleModule.script` | `to_js` |
| `StyleModule.document` | `to_json` |
| `StyleModule.output` | `render` |
-/
namespace TemplateStyles

/-! ## Scripts -/

/-- The start of every generated script. -/
def scriptHeader (file : String) : String :=
  "// Generated by kstyc v0.1.0 from " ++ file ++ "\n"

def importLine (names : List String) (moduleName : String) : String :=
  "import \x7b " ++ ", ".intercalate names ++ " \x7d from '" ++ moduleName ++ "';\n"

def CompiledTemplate.startsWith (t : CompiledTemplate) (name : String) : Bool :=
  name.toList.isPrefixOf t.outcome.code.toList

/-- The name that the template at `index` is exported under. -/
def CompiledTemplate.exportName (t : CompiledTemplate) (index : Nat) : String :=
  (t.name.filter Script.isIdentifier).getD ("style" ++ toString index)

namespace StyleModule

/-- The declarations of all style sheets. -/
def hoisted (m : StyleModule) : List String := m.templates.filterMap (·.outcome.hoisted)

/-- The helpers that the code of some template starts with. -/
def helpers (o : Options) (m : StyleModule) : List String :=
  [o.styledName, o.cssName].filter fun name => m.templates.any (·.startsWith name)

def exportLines : Nat → List CompiledTemplate → String
  | _, [] => ""
  | index, t :: ts =>
    "\nexport const " ++ t.exportName index ++ " = " ++ t.outcome.code ++ ";\n" ++
      exportLines (index + 1) ts

def script (o : Options) (m : StyleModule) : String :=
  scriptHeader m.fileName ++
    (if m.hoisted = [] then "" else importLine [o.sheetName] o.sheetModule) ++
    (if m.helpers o = [] then "" else importLine (m.helpers o) o.helperModule) ++
    (if m.hoisted = [] then "" else "\n" ++ String.join (m.hoisted.map (· ++ "\n"))) ++
    exportLines 0 m.templates

end StyleModule

/-! ## Documents -/

/-- A text, or `null`. -/
def Json.ofOption : Option String → Json
  | none => .null
  | some s => .str s

namespace CompiledTemplate

def toJson (t : CompiledTemplate) : Json :=
  .obj ([("name", Json.ofOption t.name),
      ("instructions", t.instructions.toJson),
      ("diagnostics", t.findings.toJson)] ++
    (t.outcome.hoisted.map fun h => ("hoisted", .str h)).toList ++
    [("code", .str t.outcome.code), ("transformed", .bool t.outcome.isRewritten)])

end CompiledTemplate

namespace StyleModule

def toJson (m : StyleModule) : Json :=
  .obj [("fileName", .str m.fileName), ("templates", .arr (m.templates.map (·.toJson)))]

def document (m : StyleModule) : String := m.toJson.pretty

end StyleModule

/-! ## Dumps -/

def Registration.dump (r : Registration) : Dump :=
  .record "StyleSheetRegistration"
    [("id", .ofText r.id), ("key", .ofText r.key), ("properties", StyleMap.dump r.properties)]

def PatchEntry.dump (e : PatchEntry) : Dump :=
  .record "DynamicEntry"
    [("property", .ofText e.property), ("expression_index", .ofNat e.expression)]

def PatchBuilder.dump (p : PatchBuilder) : Dump :=
  .record "DynamicPatchBuilder"
    [("param_name", .ofText p.parameter), ("entries", .list (p.entries.map PatchEntry.dump))]

def Instructions.dump (i : Instructions) : Dump :=
  .record "InstructionSet"
    [("style_sheet_registration", .ofOption (i.registration.map Registration.dump)),
     ("dynamic_patch_builder", .ofOption (i.patch.map PatchBuilder.dump))]

def CompiledTemplate.dump (t : CompiledTemplate) : Dump :=
  .record "CompiledTemplate"
    [("name", .ofOption (t.name.map .ofText)), ("instructions", t.instructions.dump),
     ("diagnostics", t.findings.dump), ("hoisted", .ofOption (t.outcome.hoisted.map .ofText)),
     ("code", .ofText t.outcome.code), ("transformed", .ofBool t.outcome.isRewritten)]

def StyleModule.dump (m : StyleModule) : Dump :=
  .record "CompiledModule"
    [("file_name", .ofText m.fileName),
     ("templates", .list (m.templates.map CompiledTemplate.dump))]

/-! ## The format of the options -/

namespace StyleModule

def output (o : Options) (m : StyleModule) : String :=
  match o.format with
  | .script => m.script o
  | .document => m.document
  | .dump => m.dump.text

end StyleModule

end TemplateStyles
