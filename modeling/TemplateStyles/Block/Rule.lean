import TemplateStyles.Property.Box
import TemplateStyles.Property.Name
import TemplateStyles.Value
/-!
# Declarations and style rules

A declaration is a property and a value with a colon between them. `Declaration.write` says what
it does to a rule: a value with a marker is evaluated at each render, a padding or margin
shorthand with two or four values is replaced by the properties it stands for, and everything else
is one fixed value.

A rule has the fixed properties of a block and the properties that each render evaluates. Each
write takes the property out of the other part first, so that of two declarations of one property
only the later one counts.

| here | in the program |
| --- | --- |
| `Declaration.ofText?` | `Declaration.parse` |
| `Declaration.expandShorthand?` | `expand_shorthand` |
| `Declaration.write`, `Declaration.isAmbiguous` | `apply_declaration` |
| `StyleRule.dropDynamic` | `remove_dynamic` |
| `StyleRule.putStatic` | `insert_static` |
| `StyleRule.putDynamic` | `push_dynamic` |
| `StyleRule.apply` | `apply_declaration` |
| `StyleRule.relocate` | `relocate_leftover_placeholders` |
| `StyleRule.dynamicEntries` | `dynamic_properties` |
| `StyleRule.isEmpty` | `is_empty` |
-/
namespace TemplateStyles

/-! ## Declarations -/

/-- A property and a value as written, without the blanks around them. -/
structure Declaration where
  property : String
  value : String
deriving DecidableEq, Repr

/-- What a declaration writes into a rule. -/
inductive Write where
  /-- A value that each render evaluates. -/
  | dynamic (property : String) (value : StyleValue)
  /-- One fixed value. -/
  | static (property : String) (value : StyleValue)
  /-- The fixed values that stand for the shorthand `property`. -/
  | expanded (property : String) (entries : List (String × StyleValue))
deriving DecidableEq

namespace Declaration

/-- Splits at the first colon; neither side may be blank. -/
def ofText? (raw : String) : Option Declaration :=
  match raw.toList.dropWhile (· ≠ ':') with
  | [] => none
  | _ :: after =>
    let property := Text.trim (String.ofList (raw.toList.takeWhile (· ≠ ':')))
    let value := Text.trim (String.ofList after)
    if property = "" ∨ value = "" then none else some ⟨property, value⟩

/-- The properties that a box shorthand with several values stands for. A single value is kept, and
so are three or more than four. -/
def expandShorthand? (property value : String) : Option (List (String × StyleValue)) :=
  if Text.hasBlank (Text.trim value) then
    BoxShorthand.expandAmong? BoxShorthand.inBlocks (Text.trim property)
      ((Text.words value).map StyleValue.ofText)
  else none

/-- The canonical name of the property. -/
def canonical (d : Declaration) : String := Property.normalize d.property

def write (d : Declaration) : Write :=
  if Marker.occursIn d.value then .dynamic d.canonical (.ofText d.value)
  else match expandShorthand? d.property d.value with
    | some entries => .expanded d.canonical entries
    | none => .static d.canonical (.ofText d.value)

/-- A box shorthand with a number of values that has no positional meaning. -/
def isAmbiguous (d : Declaration) : Bool :=
  !Marker.occursIn d.value && (expandShorthand? d.property d.value).isNone &&
    d.property ∈ BoxShorthand.inBlocks && Text.hasBlank d.value

/-- The declaration on one line. -/
def text (d : Declaration) : String := d.property ++ ": " ++ d.value

end Declaration

/-! ## Rules -/

structure StyleRule where
  static : StyleMap
  /-- Properties with markers in their values, in groups. -/
  dynamic : List StyleMap
deriving DecidableEq

namespace StyleRule

def empty : StyleRule := ⟨.empty, []⟩

instance : Inhabited StyleRule := ⟨empty⟩

def isEmpty (r : StyleRule) : Bool := r.static.isEmpty && r.dynamic.isEmpty

/-- Every dynamic property, in order. -/
def dynamicEntries (r : StyleRule) : List (String × StyleValue) :=
  r.dynamic.flatMap OrderedMap.entries

/-- Takes a property out of the dynamic part; a group that is left empty goes too. -/
def dropDynamic (key : String) (r : StyleRule) : StyleRule :=
  { r with dynamic := (r.dynamic.map (·.erase key)).filter (!·.isEmpty) }

def putStatic (key : String) (value : StyleValue) (r : StyleRule) : StyleRule :=
  { r.dropDynamic key with static := r.static.insert key value }

/-- A property whose value is evaluated; it comes last and forms a group of its own. -/
def putDynamic (key : String) (value : StyleValue) (r : StyleRule) : StyleRule :=
  ⟨r.static.erase key, (r.dropDynamic key).dynamic ++ [OrderedMap.ofList [(key, value)]]⟩

/-- An expanded shorthand also replaces what the shorthand's own name had to be evaluated to. -/
def apply (r : StyleRule) : Write → StyleRule
  | .dynamic key value => r.putDynamic key value
  | .static key value => r.putStatic key value
  | .expanded key entries =>
    entries.foldl (fun r e => r.putStatic e.1 e.2) (r.dropDynamic key)

/-- The fixed properties whose values hold markers. -/
def misplaced (r : StyleRule) : List (String × StyleValue) :=
  r.static.entries.filter (·.2.hasMarker)

/-- Moves every fixed property whose value holds a marker to the dynamic part. -/
def relocate (r : StyleRule) : StyleRule :=
  r.misplaced.foldl (fun r e => r.putDynamic e.1 e.2) r

end StyleRule

end TemplateStyles
