import TemplateStyles.Json.Reader
import TemplateStyles.Render.Props
/-!
# Themes

Design tokens in five sections, and whatever else a theme document holds. A theme is read from a
JSON object in which every section is an object and is written at most once; tokens are found by
the path of their names.

| here | in the program |
| --- | --- |
| `Theme` | `Theme` |
| `Theme.ofText?` | `from_json` |
| `Theme.toJson` | `to_value` |
| `ThemeError.missing` | `use_theme` |
| `Props.token?` | `theme_token` |
-/
namespace TemplateStyles

structure Theme where
  colors : OrderedMap Json
  space : OrderedMap Json
  radii : OrderedMap Json
  fontSizes : OrderedMap Json
  fonts : OrderedMap Json
  /-- The members that are no section. -/
  extra : OrderedMap Json
deriving DecidableEq

inductive ThemeError where
  /-- The document is no theme. -/
  | invalid
  /-- A component that needs the theme is rendered without one. -/
  | missing
deriving DecidableEq, Repr

def ThemeError.message : ThemeError → String
  | invalid => "Theme error: invalid theme"
  | missing => "Theme error: use_theme must be used within a ThemeProvider"

namespace Theme

def sectionNames : List String := ["colors", "space", "radii", "fontSizes", "fonts"]

/-- A section of a document: an object, empty if it is missing. -/
def section? (members : List (String × Json)) (name : String) : Option (OrderedMap Json) :=
  match members.lookup name with
  | none => some .empty
  | some v => v.settled.toMap?

/-- The theme with these members. -/
def ofMembers? (members : List (String × Json)) : Option Theme := do
  let sections := members.filter (·.1 ∈ sectionNames)
  if ¬ (sections.map Prod.fst).Nodup then none
  let colors ← section? sections "colors"
  let space ← section? sections "space"
  let radii ← section? sections "radii"
  let fontSizes ← section? sections "fontSizes"
  let fonts ← section? sections "fonts"
  let extra := members.filter (·.1 ∉ sectionNames)
  return ⟨colors, space, radii, fontSizes, fonts, .ofList (Json.settledMembers extra)⟩

/-- The theme that a text writes. -/
def ofText? (text : String) : Option Theme :=
  match Json.valueOf? text with
  | some (.obj members) => ofMembers? members
  | _ => none

/-- The sections in their order, then the rest. -/
def toMap (t : Theme) : OrderedMap Json :=
  .ofList ([("colors", .object t.colors), ("space", .object t.space), ("radii", .object t.radii),
    ("fontSizes", .object t.fontSizes), ("fonts", .object t.fonts)] ++ t.extra.entries)

/-- The theme as a prop. -/
def toJson (t : Theme) : Json := .object t.toMap

/-- The value at a path of member names. -/
def valueAt? : Json → List String → Option Json
  | v, [] => some v
  | v, name :: rest => (v.member? name).bind fun v => valueAt? v rest

/-- The names in a path with dots between them. -/
def pathNames (path : String) : List String := (path.toList.splitOn '.').map String.ofList

end Theme

/-- The token at a path in the theme among the props. -/
def Props.token? (p : Props) (path : String) : Option Json :=
  (p.get? Props.themeName).bind fun theme => Theme.valueAt? theme (Theme.pathNames path)

end TemplateStyles
