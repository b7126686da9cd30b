import TemplateStyles.Json.Basic
/-!
# Props

The properties that a component is rendered with. Some of them are for the styled layer only and
are not forwarded; attrs are defaults for them, which what the caller passes overrides.

| here | in the program |
| --- | --- |
| `Props.isKept` | `should_filter_prop` |
| `Props.hasTransient` | `has_transient_props` |
| `Props.forwarded` | `filter_props` |
| `Attrs.resolve` | `Attrs.resolve` |
| `Attrs.combine` | `combine_attrs` |
| `Attrs.applyTo` | `merge_attrs_with_props` |
-/
namespace TemplateStyles

abbrev Props := OrderedMap Json

namespace Props

/-- A prop that is meant for style functions only. -/
def isTransient (name : String) : Bool := name.toList.head? == some '$'

/-- The prop that replaces the rendered component. -/
def asName : String := "as"

def themeName : String := "theme"

def styleName : String := "style"

/-- A prop that stays with the styled layer. -/
def isKept (name : String) : Bool := isTransient name || name == asName || name == themeName

def hasTransient (p : Props) : Bool := p.keys.any isTransient

/-- The props that the styled layer passes on. -/
def forwarded (p : Props) : Props := p.filter fun name _ => !isKept name

/-- The same, where props that have nothing to keep are not gone through. -/
def forwardedIfNeeded (p : Props) : Props :=
  if !p.hasTransient && !p.contains asName && !p.contains themeName then p else p.forwarded

end Props

/-- Defaults for props: fixed, or computed from the props that are passed. -/
inductive Attrs where
  | fixed (values : Props)
  | computed (values : Props → Option Props)

namespace Attrs

/-- The defaults for given props. -/
def resolve : Attrs → Props → Option Props
  | fixed values, _ => some values
  | computed values, p => values p

/-- What two layers of computed attrs give: the inner one sees the props under the values of the
outer one. -/
def layered (base child : Attrs) (p : Props) : Props :=
  match base.resolve p with
  | some outer => outer.merge ((child.resolve (p.merge outer)).getD .empty)
  | none => (child.resolve p).getD .empty

/-- Two layers of attrs as one. Where both give a value, that of the inner layer counts. -/
def combine : Option Attrs → Option Attrs → Option Attrs
  | none, child => child
  | base, none => base
  | some (.fixed base), some (.fixed child) => some (.fixed (base.merge child))
  | some base, some child => some (.computed fun p => some (base.layered child p))

/-- Props with defaults: the props that are passed count. -/
def applyTo (attrs : Option Attrs) (p : Props) : Props :=
  match attrs.bind (·.resolve p) with
  | some defaults => defaults.merge p
  | none => p

end Attrs

end TemplateStyles
