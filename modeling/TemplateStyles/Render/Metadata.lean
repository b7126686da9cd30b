import TemplateStyles.Render.Fragment
import TemplateStyles.Render.Props
import TemplateStyles.Sheet.Emission
/-!
# Style metadata

What a styled component knows about its styles: the registered ones and the order in which they
count, the patch that is evaluated at each render, and defaults for its props. Metadata are
inherited: those of the base come first, and those of the child override them.

| here | in the program |
| --- | --- |
| `Metadata` | `StyleMetadata` |
| `Interpolation`, `Interpolation.evaluate` | `Interpolation.evaluate` |
| `Metadata.evaluatePatch` | `dynamic_patch` |
| `Metadata.staticStyles` | `static_styles` |
| `combinePatches` | `create_combined_dynamic_patch` |
| `Metadata.merge` | `merge_metadata` |
| `PatchBuilder.function` | `build_dynamic_patch` |
| `Metadata.ofInstructions` | `from_instructions` |
-/
namespace TemplateStyles

/-- A function from props to a patch, or to nothing. -/
abbrev PatchFunction := Props → Option StyleObject

structure Metadata where
  compiled : Option CompiledStyles
  keys : Option (List String)
  patch : Option PatchFunction
  attrs : Option Attrs
  debug : Bool

/-- A value that is interpolated into a template. -/
inductive Interpolation where
  | value (v : Json)
  | function (f : Props → Json)

/-- The value of an interpolation for given props. -/
def Interpolation.evaluate : Interpolation → Props → Json
  | value v, _ => v
  | function f, p => f p

/-- Both patches see the same props; the properties of the second count. -/
def combinePatches : Option PatchFunction → Option PatchFunction → Option PatchFunction
  | some base, some child => some fun p => mergePatches (base p) (child p)
  | base, child => child.or base

namespace Metadata

def empty : Metadata := ⟨none, none, none, none, false⟩

instance : Inhabited Metadata := ⟨empty⟩

def styleKeys (m : Metadata) : List String := m.keys.getD []

def withAttrs (m : Metadata) (attrs : Option Attrs) : Metadata := { m with attrs := attrs }

def evaluatePatch (m : Metadata) (p : Props) : Option StyleObject := m.patch.bind (· p)

/-- The registered styles in order; nothing if there are none or they have no names. -/
def staticStyles (m : Metadata) : Option (List StyleEntry) :=
  if m.compiled.isNone ∨ m.styleKeys = [] then none
  else some (staticEntries m.compiled m.styleKeys)

/-- The styles of both; of two under one name the child's counts. -/
def mergeCompiled : Option CompiledStyles → Option CompiledStyles → Option CompiledStyles
  | some base, some child => some (base.merge child)
  | base, child => child.or base

/-- The names of both, those of the base first. -/
def mergeKeys : Option (List String) → Option (List String) → Option (List String)
  | some base, some child => some (base ++ child)
  | base, child => child.or base

/-- The metadata of a child that inherits from `base`. -/
def merge (base child : Metadata) : Metadata where
  compiled := mergeCompiled base.compiled child.compiled
  keys := mergeKeys base.keys child.keys
  patch := combinePatches base.patch child.patch
  attrs := Attrs.combine base.attrs child.attrs
  debug := base.debug || child.debug

end Metadata

/-! ## Metadata from instructions -/

/-- A patch with the values of the interpolations that its entries name. -/
def PatchBuilder.function (b : PatchBuilder) (values : List Interpolation) : PatchFunction :=
  fun p => some <| .ofList <| b.entries.filterMap fun e =>
    (values[e.expression]?).map fun v => (e.property, v.evaluate p)

namespace Metadata

/-- Registers the style sheet of the instructions, and evaluates their patch at each render. -/
def ofInstructions (i : Instructions) (values : List Interpolation) (r : SheetRegistry) :
    Metadata × SheetRegistry :=
  let patch := i.patch.map (·.function values)
  match i.registration with
  | none => (⟨none, none, patch, none, false⟩, r)
  | some s =>
    let (r, compiled) := r.create [(s.key, StyleMap.toJson s.properties)]
    (⟨some compiled, some [s.key], patch, none, false⟩, r)

end Metadata

end TemplateStyles
