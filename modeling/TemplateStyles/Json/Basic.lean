import TemplateStyles.Json.Number
import TemplateStyles.OrderedMap
/-!
# JSON values

A value as it stands in a document: the members of an object keep their order, and a key may be
written more than once. `Json.settled` gives every object the keys of a map, where the last value
of a repeated key counts at the key's first place; `Json.object` and `Json.toMap?` convert between
such objects and `OrderedMap`.
-/
namespace TemplateStyles

inductive Json where
  | null
  | bool (b : Bool)
  | num (n : JsonNumber)
  | str (s : String)
  | arr (items : List Json)
  | obj (members : List (String × Json))
deriving Inhabited

namespace Json

/-! ## Equality -/

mutual

def decEq : (a b : Json) → Decidable (a = b)
  | .null, .null => isTrue rfl
  | .bool a, .bool b => decidable_of_iff (a = b) (by simp)
  | .num a, .num b => decidable_of_iff (a = b) (by simp)
  | .str a, .str b => decidable_of_iff (a = b) (by simp)
  | .arr a, .arr b =>
    match decEqItems a b with
    | isTrue h => isTrue (by rw [h])
    | isFalse h => isFalse (by simpa using h)
  | .obj a, .obj b =>
    match decEqMembers a b with
    | isTrue h => isTrue (by rw [h])
    | isFalse h => isFalse (by simpa using h)
  | .null, .bool _ | .null, .num _ | .null, .str _ | .null, .arr _ | .null, .obj _
  | .bool _, .null | .bool _, .num _ | .bool _, .str _ | .bool _, .arr _ | .bool _, .obj _
  | .num _, .null | .num _, .bool _ | .num _, .str _ | .num _, .arr _ | .num _, .obj _
  | .str _, .null | .str _, .bool _ | .str _, .num _ | .str _, .arr _ | .str _, .obj _
  | .arr _, .null | .arr _, .bool _ | .arr _, .num _ | .arr _, .str _ | .arr _, .obj _
  | .obj _, .null | .obj _, .bool _ | .obj _, .num _ | .obj _, .str _ | .obj _, .arr _ =>
    isFalse (by simp)

def decEqItems : (a b : List Json) → Decidable (a = b)
  | [], [] => isTrue rfl
  | x :: r, y :: s =>
    match decEq x y, decEqItems r s with
    | isTrue h, isTrue g => isTrue (by rw [h, g])
    | isFalse h, _ => isFalse (fun e => h (List.cons.inj e).1)
    | _, isFalse g => isFalse (fun e => g (List.cons.inj e).2)
  | [], _ :: _ | _ :: _, [] => isFalse (by simp)

def decEqMembers : (a b : List (String × Json)) → Decidable (a = b)
  | [], [] => isTrue rfl
  | (k, x) :: r, (l, y) :: s =>
    match String.decEq k l, decEq x y, decEqMembers r s with
    | isTrue f, isTrue h, isTrue g => isTrue (by rw [f, h, g])
    | isFalse f, _, _ => isFalse (fun e => f (Prod.mk.inj (List.cons.inj e).1).1)
    | _, isFalse h, _ => isFalse (fun e => h (Prod.mk.inj (List.cons.inj e).1).2)
    | _, _, isFalse g => isFalse (fun e => g (List.cons.inj e).2)
  | [], _ :: _ | _ :: _, [] => isFalse (by simp)

end

instance : DecidableEq Json := decEq

/-! ## Objects as maps -/

mutual

/-- Every object with the keys of a map: the last value of a key counts, at its first place. -/
def settled : Json → Json
  | .arr items => .arr (settledItems items)
  | .obj members => .obj (OrderedMap.ofList (settledMembers members)).entries
  | .null => .null
  | .bool b => .bool b
  | .num n => .num n
  | .str s => .str s

def settledItems : List Json → List Json
  | [] => []
  | x :: r => settled x :: settledItems r

def settledMembers : List (String × Json) → List (String × Json)
  | [] => []
  | (k, x) :: r => (k, settled x) :: settledMembers r

end

def object (m : OrderedMap Json) : Json := .obj m.entries

def toMap? : Json → Option (OrderedMap Json)
  | .obj members => some (.ofList members)
  | _ => none

/-- The value of a key of an object, nothing for any other value. -/
def member? (key : String) : Json → Option Json
  | .obj members => (OrderedMap.ofList members).get? key
  | _ => none

/-! ## Views -/

def text? : Json → Option String
  | .str s => some s
  | _ => none

def bool? : Json → Option Bool
  | .bool b => some b
  | _ => none

end Json

end TemplateStyles
