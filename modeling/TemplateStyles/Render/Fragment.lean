import TemplateStyles.Render.StyleSheet
import TemplateStyles.Value
/-!
# Style fragments

The parts that a style list is put together from: the registered styles, then the patch that was
evaluated for a render, then the caller's own style. Fragments behind the registered styles have
their box shorthands expanded, since a shorthand would lose against a side that is registered.

| here | in the program |
| --- | --- |
| `StyleObject.rank` | `specificity` |
| `StyleObject.expand` | `expand_shorthand_properties` |
| `Json.typed`, `StyleObject.typed` | `normalize_json`, `normalize_dynamic_patch` |
| `mergePatches` | `merge_dynamic_patches` |
| `externalEntries` | `push_external`, `entry_from_value` |
| `staticEntries`, `patchEntries`, `styleList` | `build_style_list` |
-/
namespace TemplateStyles

/-! ## Expanding shorthands -/

namespace StyleObject

/-- How specific a property is. -/
def rank (property : String) : Nat :=
  match BoxShorthand.ofName? property with
  | some s => s.part.rank
  | none => 2

/-- A property as the properties it stands for. -/
def sides (e : String × Json) : List (String × Json) :=
  (BoxShorthand.expandAmong? BoxShorthand.inFragments e.1 [e.2]).getD [e]

/-- A value with how specific the property was that set it. -/
structure Ranked where
  value : Json
  rank : Nat

/-- A value counts unless a more specific property has set one before. -/
def putRanked (m : OrderedMap Ranked) (rank : Nat) (e : String × Json) : OrderedMap Ranked :=
  if (m.get? e.1).all (·.rank ≤ rank) then m.insert e.1 ⟨e.2, rank⟩ else m

/-- All sides that a property stands for. -/
def putSides (m : OrderedMap Ranked) (e : String × Json) : OrderedMap Ranked :=
  (sides e).foldl (fun m side => putRanked m (rank e.1) side) m

/-- The style with its box shorthands replaced by sides. A more specific property keeps its value
wherever it stands. -/
def expand (style : StyleObject) : StyleObject :=
  if style.keys.any (· ∈ BoxShorthand.inFragments) then
    (style.entries.foldl putSides .empty).mapValues (·.value)
  else style

end StyleObject

/-! ## Typing evaluated values -/

mutual

/-- A value with every text in it typed as in a style block. -/
def Json.typed : Json → Json
  | .str s => (StyleValue.ofText s).toJson
  | .arr items => .arr (Json.typedItems items)
  | .obj members => .obj (Json.typedMembers members)
  | .null => .null
  | .bool b => .bool b
  | .num n => .num n

def Json.typedItems : List Json → List Json
  | [] => []
  | x :: r => Json.typed x :: Json.typedItems r

def Json.typedMembers : List (String × Json) → List (String × Json)
  | [] => []
  | (k, x) :: r => (k, Json.typed x) :: Json.typedMembers r

end

/-- An evaluated patch with typed values. -/
def StyleObject.typed (patch : StyleObject) : StyleObject := patch.mapValues Json.typed

/-! ## Patches -/

/-- The properties of a later patch written over those of an earlier one. -/
def mergePatches : Option StyleObject → Option StyleObject → Option StyleObject
  | some base, some child => some (base.merge child)
  | base, child => child.or base

/-- A patch as it enters a style list. -/
def patchEntries : Option StyleObject → List StyleEntry
  | some patch => if patch.isEmpty then [] else [.inlined (StyleObject.expand patch.typed)]
  | none => []

/-! ## Style lists -/

/-- The largest number that a caller can name a style by. -/
def maxStyleId : Int := UInt32.size - 1

mutual

/-- The entries of a caller's style: lists are flattened, numbers name registered styles, and
everything that is neither of them nor an object is passed over. -/
def externalEntries : Json → List StyleEntry
  | .arr items => externalItems items
  | .obj members => [.inlined (StyleObject.expand (OrderedMap.ofList members))]
  | .num (.int n) => if 0 ≤ n ∧ n ≤ maxStyleId then [.registered n.toNat] else []
  | .num (.double ..) | .null | .bool _ | .str _ => []

def externalItems : List Json → List StyleEntry
  | [] => []
  | x :: r => externalEntries x ++ externalItems r

end

/-- The registered styles under the given names, in the order of the names. -/
def staticEntries (compiled : Option CompiledStyles) (keys : List String) : List StyleEntry :=
  match compiled with
  | none => []
  | some styles => (keys.filterMap styles.get?).map .registered

/-- Registered styles, then the patch, then the caller's style. -/
def styleList (compiled : Option CompiledStyles) (keys : List String)
    (patch : Option StyleObject) (external : Option Json) : List StyleEntry :=
  staticEntries compiled keys ++ patchEntries patch ++ (external.map externalEntries).getD []

end TemplateStyles
