import TemplateStyles.Block.Rule
/-!
# Style instructions

What is generated for one block: a style sheet to register for its fixed properties, and a patch
that evaluates its dynamic ones. A block that has neither leaves its template as it is.

`emit` turns a rule into instructions: its fixed properties become one style sheet, and each
dynamic property whose value names an expression of the template becomes an entry of the patch.
Sheets are numbered through one file, so each takes the next number of its `SheetCounter`.

| here | in the program |
| --- | --- |
| `Registration` | `StyleSheetRegistration` |
| `PatchEntry`, `PatchBuilder` | `DynamicEntry`, `DynamicPatchBuilder` |
| `Instructions` | `InstructionSet` |
| `Instructions.order` | `instructions` |
| `Instructions.styleKeys` | `style_keys` |
| `SheetCounter` | `CompilationUnit` |
| `SheetCounter.id`, `SheetCounter.next` | `next_style_id` |
| `baseKey`, `patchParameter` | `STYLE_KEY_BASE`, `PATCH_PARAM_NAME` |
| `emit` | `emit` |
-/
namespace TemplateStyles

/-! ## Instructions -/

/-- A style sheet with one style in it. -/
structure Registration where
  /-- The name that the sheet is declared under. -/
  id : String
  /-- The name of the style in the sheet. -/
  key : String
  properties : StyleMap
deriving DecidableEq

/-- A property that takes the value of an expression of the template. -/
structure PatchEntry where
  property : String
  expression : Nat
deriving DecidableEq, Repr

/-- A function of the props that gives the dynamic properties. -/
structure PatchBuilder where
  parameter : String
  entries : List PatchEntry
deriving DecidableEq, Repr

structure Instructions where
  registration : Option Registration
  patch : Option PatchBuilder
deriving DecidableEq

/-- The instructions without their contents. -/
inductive InstructionKind where
  | register
  | patch
deriving DecidableEq, Repr

namespace Instructions

def none : Instructions := ⟨.none, .none⟩

instance : Inhabited Instructions := ⟨none⟩

def isEmpty (i : Instructions) : Bool := i.registration.isNone && i.patch.isNone

def isStaticOnly (i : Instructions) : Bool := i.registration.isSome && i.patch.isNone

/-- The instructions in the order in which they take effect: a sheet is registered before its
use. -/
def order (i : Instructions) : List InstructionKind :=
  (i.registration.map fun _ => .register).toList ++ (i.patch.map fun _ => .patch).toList

/-- The names of the registered styles. -/
def styleKeys (i : Instructions) : List String := (i.registration.map (·.key)).toList

end Instructions

/-! ## Documents -/

def Registration.toJson (r : Registration) : Json :=
  .obj [("id", .str r.id), ("key", .str r.key), ("properties", .object r.properties.toJson)]

def PatchEntry.toJson (e : PatchEntry) : Json :=
  .obj [("property", .str e.property), ("expressionIndex", .num (.int e.expression))]

def PatchBuilder.toJson (p : PatchBuilder) : Json :=
  .obj [("paramName", .str p.parameter), ("entries", .arr (p.entries.map PatchEntry.toJson))]

/-- Only the instructions that there are have members. -/
def Instructions.toJson (i : Instructions) : Json :=
  .obj ((i.registration.map fun r => ("styleSheetRegistration", r.toJson)).toList ++
    (i.patch.map fun p => ("dynamicPatchBuilder", p.toJson)).toList)

/-! ## From rules to instructions -/

/-- How many sheets of a file have been named. -/
structure SheetCounter where
  used : Nat
deriving DecidableEq, Repr, Inhabited

namespace SheetCounter

def start : SheetCounter := ⟨0⟩

/-- The name of the next sheet. -/
def id (c : SheetCounter) : String := "__ks" ++ toString c.used

def next (c : SheetCounter) : SheetCounter := ⟨c.used + 1⟩

end SheetCounter

/-- The name of the style in a generated sheet. -/
def baseKey : String := "base"

/-- The parameter of a generated patch. -/
def patchParameter : String := "p"

/-- Instructions with what could not be expressed by them. -/
structure Emission where
  instructions : Instructions
  counter : SheetCounter
  /-- Dynamic properties without an expression. -/
  dropped : List (String × StyleValue)
deriving DecidableEq

namespace StyleRule

/-- The fixed properties that can be registered. -/
def registered (r : StyleRule) : StyleMap := r.static.filter fun _ v => !v.hasMarker

/-- The properties that have to be evaluated: those with a marker, wherever they stand. -/
def evaluated (r : StyleRule) : List (String × StyleValue) := r.misplaced ++ r.dynamicEntries

end StyleRule

/-- The expression that a value takes its value from, if the template has it. -/
def StyleValue.expression? (count : Nat) (v : StyleValue) : Option Nat :=
  (v.asText?.bind Marker.index?).filter (· < count)

/-- The patch entry of a dynamic property. -/
def PatchEntry.ofDynamic? (count : Nat) (e : String × StyleValue) : Option PatchEntry :=
  (e.2.expression? count).map fun index => ⟨e.1, index⟩

/-- The sheet for these properties, unless there are none. -/
def registration? (properties : StyleMap) (c : SheetCounter) : Option Registration :=
  if properties.isEmpty then none else some ⟨c.id, baseKey, properties⟩

/-- The patch with these entries, unless there are none. -/
def patchBuilder? (entries : List PatchEntry) : Option PatchBuilder :=
  if entries.isEmpty then none else some ⟨patchParameter, entries⟩

/-- The instructions of a rule for a template with `count` expressions. Only a registered sheet
uses up a number. -/
def emit (rule : StyleRule) (count : Nat) (c : SheetCounter) : Emission where
  instructions :=
    ⟨registration? rule.registered c,
      patchBuilder? (rule.evaluated.filterMap (PatchEntry.ofDynamic? count))⟩
  counter := if rule.registered.isEmpty then c else c.next
  dropped := rule.evaluated.filter fun e => (PatchEntry.ofDynamic? count e).isNone

end TemplateStyles
