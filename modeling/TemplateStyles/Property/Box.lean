/-!
# Box properties

The padding and margin families. A property of a family sets the whole box, an axis of it or one
side; whole box and axes are shorthands. `BoxFamily.expand?` gives the longer properties that a
shorthand with a row of values stands for: one value covers every side, two are vertical and
horizontal, four go clockwise from the top.

| here | in the program |
| --- | --- |
| `BoxPart`, `BoxShorthand.ofName?` | `split_box_property` |
| `BoxShorthand.inBlocks` | `PARSE_TIME_SHORTHANDS` |
| `BoxShorthand.inFragments` | `MERGE_TIME_SHORTHANDS` |
| `BoxFamily.expand?`, `BoxShorthand.expandAmong?` | `expand_box_model` |
-/
namespace TemplateStyles

inductive BoxFamily where
  | padding
  | margin
deriving DecidableEq, Repr

/-- What a box property sets. -/
inductive BoxPart where
  | all
  | vertical
  | horizontal
  | top
  | right
  | bottom
  | left
deriving DecidableEq, Repr

namespace BoxPart

/-- What the name of the family is followed by. -/
def suffix : BoxPart → String
  | all => ""
  | vertical => "Vertical"
  | horizontal => "Horizontal"
  | top => "Top"
  | right => "Right"
  | bottom => "Bottom"
  | left => "Left"

/-- The sides that a part covers, in the order in which an expansion writes them. -/
def sides : BoxPart → List BoxPart
  | all => [top, right, bottom, left]
  | vertical => [top, bottom]
  | horizontal => [left, right]
  | top => [top]
  | right => [right]
  | bottom => [bottom]
  | left => [left]

/-- How specific a part is: a side beats an axis, and an axis beats the whole box. -/
def rank : BoxPart → Nat
  | all => 0
  | vertical | horizontal => 1
  | top | right | bottom | left => 2

def shorthands : List BoxPart := [all, vertical, horizontal]

/-- The axis on which a side lies. -/
def axis : BoxPart → BoxPart
  | top | bottom | vertical => vertical
  | left | right | horizontal => horizontal
  | all => all

end BoxPart

namespace BoxFamily

def families : List BoxFamily := [padding, margin]

def name : BoxFamily → String
  | padding => "padding"
  | margin => "margin"

/-- The property of the family that sets a part. -/
def key (f : BoxFamily) (part : BoxPart) : String := f.name ++ part.suffix

/-- The properties that a shorthand with these values stands for; nothing if that many values have
no positional meaning. -/
def expand? {α : Type} (f : BoxFamily) (part : BoxPart) (values : List α) :
    Option (List (String × α)) :=
  match part, values with
  | part, [v] => some (part.sides.map fun side => (f.key side, v))
  | .all, [v, h] => some [(f.key .vertical, v), (f.key .horizontal, h)]
  | .all, [t, r, b, l] =>
    some [(f.key .top, t), (f.key .right, r), (f.key .bottom, b), (f.key .left, l)]
  | _, _ => none

end BoxFamily

/-! ## Shorthands by name -/

/-- A property that sets more than one side of a box. -/
structure BoxShorthand where
  family : BoxFamily
  part : BoxPart
  part_mem : part ∈ BoxPart.shorthands
deriving DecidableEq

namespace BoxShorthand

def name (s : BoxShorthand) : String := s.family.key s.part

/-- The shorthands of a family. -/
def ofFamily (f : BoxFamily) : List BoxShorthand :=
  [⟨f, .all, by decide⟩, ⟨f, .vertical, by decide⟩, ⟨f, .horizontal, by decide⟩]

def shorthands : List BoxShorthand := BoxFamily.families.flatMap ofFamily

def ofName? (name : String) : Option BoxShorthand := shorthands.find? (·.name = name)

/-- The shorthands that a declaration block expands: those of a whole box. -/
def inBlocks : List String := BoxFamily.families.map (·.key .all)

/-- The shorthands that are expanded where style fragments meet: all of them. -/
def inFragments : List String := shorthands.map name

/-- The expansion of a property with a row of values, if it is one of the given shorthands. -/
def expandAmong? {α : Type} (targets : List String) (property : String) (values : List α) :
    Option (List (String × α)) :=
  if property ∈ targets then
    (ofName? property).bind fun s => s.family.expand? s.part values
  else none

end BoxShorthand

end TemplateStyles
