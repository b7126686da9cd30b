import TemplateStyles.Block.Reader
import TemplateStyles.Dump
import TemplateStyles.Json.Printer
/-!
# Writing declaration blocks

A style map as a declaration block, one declaration a line. A text that would not read back as
itself is put between quotes.

What was read from a block, its rule and the findings, is also written in JSON and as a dump.

| here | in the program |
| --- | --- |
| `StyleValue.css` | `value_to_css` |
| `StyleMap.toCss` | `style_map_to_css` |
-/
namespace TemplateStyles

/-! ## Blocks -/

namespace StyleValue

/-- A value as it is written in a block. -/
def css : StyleValue → String
  | number x => x.text
  | text s =>
    if ofText s = text s then s
    else if '"' ∈ s.toList then "'" ++ s ++ "'"
    else "\"" ++ s ++ "\""

end StyleValue

namespace StyleMap

/-- The declaration of one property. -/
def declaration (e : String × StyleValue) : String :=
  Property.toKebab e.1 ++ ": " ++ e.2.css ++ ";"

def toCss (m : StyleMap) : String := "\n".intercalate (m.entries.map declaration)

end StyleMap

/-! ## Documents -/

def StyleRule.toJson (r : StyleRule) : Json :=
  .obj [("static", .object (StyleMap.toJson r.static)),
    ("dynamic", .arr (r.dynamic.map fun group =>
      .obj [("properties", .object (StyleMap.toJson group))]))]

def Findings.toJson (f : Findings) : Json :=
  .obj [("skipped", .arr (f.skipped.map .str)),
    ("unknown_properties", .arr (f.unknown.map .str)),
    ("ambiguous_shorthands", .arr (f.ambiguous.map .str)),
    ("relocated", .arr (f.relocated.map .str))]

/-! ## Dumps -/

def StyleValue.dump : StyleValue → Dump
  | number x => .variant "Number" [.ofNumber x]
  | text s => .variant "Text" [.ofText s]

def StyleMap.dump (m : StyleMap) : Dump := .map (m.mapValues StyleValue.dump).entries

def Findings.dump (f : Findings) : Dump :=
  .record "ParseDiagnostics"
    [("skipped", .ofTexts f.skipped), ("unknown_properties", .ofTexts f.unknown),
     ("ambiguous_shorthands", .ofTexts f.ambiguous), ("relocated", .ofTexts f.relocated)]

end TemplateStyles
