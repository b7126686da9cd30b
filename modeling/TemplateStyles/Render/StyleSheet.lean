import TemplateStyles.Json.Basic
import TemplateStyles.Notice
import TemplateStyles.Property.Box
/-!
# Style sheets

Registered styles and style lists. A `SheetRegistry` numbers the styles that are registered with
it, from one on; a style list names registered styles by number and holds others inline.
`flatten` gives a list the values of its last entries, and `resolve` also settles the box
properties: a side's own value counts before that of its axis, and that before the value of the
whole box, wherever they stand in the list.

| here | in the program |
| --- | --- |
| `StyleEntry`, `SheetRegistry` | `StyleEntry`, `StyleSheetRegistry` |
| `SheetRegistry.create` | `create` |
| `SheetRegistry.get?` | `get` |
| `SheetRegistry.flatten` | `flatten` |
| `BoxFamily.settle`, `SheetRegistry.resolve` | `resolve` |
-/
namespace TemplateStyles

/-- The properties of a style, in insertion order. -/
abbrev StyleObject := OrderedMap Json

/-- The numbers of registered styles under their names. -/
abbrev CompiledStyles := OrderedMap Nat

/-- An element of a style list. -/
inductive StyleEntry where
  | registered (id : Nat)
  | inlined (style : StyleObject)
deriving DecidableEq

/-- The registered styles; the first one has number 1. -/
structure SheetRegistry where
  styles : List StyleObject
deriving DecidableEq

namespace SheetRegistry

def empty : SheetRegistry := ⟨[]⟩

instance : Inhabited SheetRegistry := ⟨empty⟩

def size (r : SheetRegistry) : Nat := r.styles.length

def get? (r : SheetRegistry) (id : Nat) : Option StyleObject :=
  if id = 0 then none else r.styles[id - 1]?

/-- Registers one style; it gets the next number. Numbers are naturals and do not wrap around: a
registry stays below `2 ^ 32` styles, as `RegistryCall.handedOut_stable` assumes. -/
def add (r : SheetRegistry) (style : StyleObject) : SheetRegistry × Nat :=
  (⟨r.styles ++ [style]⟩, r.size + 1)

/-- Registers named styles in order. Of two styles with one name both are registered, and the name
stands for the later one. -/
def createInto (r : SheetRegistry) (named : CompiledStyles) :
    List (String × StyleObject) → SheetRegistry × CompiledStyles
  | [] => (r, named)
  | (name, style) :: rest =>
    let (r, id) := r.add style
    r.createInto (named.insert name id) rest

def create (r : SheetRegistry) (styles : List (String × StyleObject)) :
    SheetRegistry × CompiledStyles := r.createInto .empty styles

/-! ## Style lists -/

/-- The style that an entry stands for, if there is one. -/
def style? (r : SheetRegistry) : StyleEntry → Option StyleObject
  | .registered id => r.get? id
  | .inlined style => some style

/-- The entries that set a property: `null` leaves it unset. -/
def setEntries (style : StyleObject) : List (String × Json) :=
  style.entries.filter (·.2 ≠ .null)

/-- The values of the last entries of a list. Entries that name no style are passed over. -/
def flatten (r : SheetRegistry) (list : List StyleEntry) : StyleObject :=
  OrderedMap.ofList ((list.filterMap r.style?).flatMap setEntries)

/-- The entries of a list that name no registered style. -/
def notices (r : SheetRegistry) (list : List StyleEntry) : List Notice :=
  list.filterMap fun
    | .registered id => if (r.get? id).isNone then some (.unregisteredStyle id) else none
    | .inlined _ => none

end SheetRegistry

/-! ## Box properties -/

namespace BoxFamily

/-- The value of a side that has none of its own. -/
def inherited? (f : BoxFamily) (style : StyleObject) (side : BoxPart) : Option Json :=
  (style.get? (f.key side.axis)).or (style.get? (f.key .all))

/-- The style without the shorthands of the family. -/
def withoutShorthands (f : BoxFamily) (style : StyleObject) : StyleObject :=
  BoxPart.shorthands.foldl (fun style part => style.eraseSwap (f.key part)) style

/-- Every side of the family with the value of its most specific property. -/
def settle (f : BoxFamily) (style : StyleObject) : StyleObject :=
  BoxPart.all.sides.foldl (fun settled side =>
    if settled.contains (f.key side) then settled
    else match f.inherited? style side with
      | some v => settled.insert (f.key side) v
      | none => settled) (f.withoutShorthands style)

end BoxFamily

/-- The style as the platform applies it. -/
def SheetRegistry.resolve (r : SheetRegistry) (list : List StyleEntry) : StyleObject :=
  BoxFamily.families.foldl (fun style f => f.settle style) (r.flatten list)

end TemplateStyles
