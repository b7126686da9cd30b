import TemplateStyles.Block.Reader
import TemplateStyles.Render.Component
import TemplateStyles.Sheet.Emission
/-!
# Templates read late

A template that was not compiled beforehand is read when it is used, by the same rules. It is told
once for every call site that this is so.

| here | in the program |
| --- | --- |
| `LateTemplate.metadata` | `parse_template` |
| `StyledFactory` | `StyledFactory` |
| `StyledFactory.addAttrs` | `attrs` |
| `StyledFactory.withStyles` | `with_styles` |
| `StyledFactory.ofTemplate` | `from_template` |
-/
namespace TemplateStyles

/-- What stands for the file of a template that is read late. -/
def lateFile : String := "<runtime>"

/-- A template of literal parts and the values between them. -/
structure LateTemplate where
  parts : List String
  values : List Interpolation

namespace LateTemplate

def block (t : LateTemplate) : Block := Block.ofText (Marker.join t.parts t.values.length)

def emission (t : LateTemplate) : Emission := emit t.block.rule t.values.length .start

/-- Registers the fixed styles; the others are evaluated at each render. -/
def metadata (t : LateTemplate) (r : SheetRegistry) : Metadata × SheetRegistry :=
  Metadata.ofInstructions t.emission.instructions t.values r

def notices (t : LateTemplate) : List Notice :=
  t.block.findings.ambiguous.map .ambiguousShorthand ++
    t.emission.dropped.map fun d => .droppedDynamic lateFile d.1 d.2

end LateTemplate

/-- A call site that makes styled components of one base. -/
structure StyledFactory where
  base : Component
  attrs : Option Attrs
  /-- Whether it was told that templates are read late. -/
  warned : Bool

namespace StyledFactory

def ofComponent (c : Component) : StyledFactory := ⟨c, none, false⟩

/-- A factory with further default props. -/
def addAttrs (f : StyledFactory) (attrs : Attrs) : StyledFactory :=
  ⟨f.base, Attrs.combine f.attrs (some attrs), false⟩

/-- The component with compiled metadata. -/
def withStyles (f : StyledFactory) (m : Metadata) : StyledComponent :=
  ⟨f.base, m.withAttrs (Attrs.combine f.attrs m.attrs)⟩

/-- The component with the styles of a template. -/
def ofTemplate (f : StyledFactory) (t : LateTemplate) (r : SheetRegistry) :
    StyledComponent × SheetRegistry :=
  let (m, r) := t.metadata r
  (⟨f.base, m.withAttrs f.attrs⟩, r)

/-- The factory after it was told. -/
def warn (f : StyledFactory) : StyledFactory := { f with warned := true }

def notices (f : StyledFactory) (t : LateTemplate) : List Notice :=
  (if f.warned then [] else [.styledReadLate f.base.displayName]) ++ t.notices

end StyledFactory

end TemplateStyles
