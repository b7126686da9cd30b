import TemplateStyles.Json.Basic
/-!
# Documents as they are written

What a document holds before its values are asked for. A number may lie beyond the doubles, and a
text may hold half a surrogate pair: both are written by the rules but have no value, which matters
only where the value is needed (`Written.value?`). Keys may repeat.

A record is written as an object, or as an array of its members in their order. In an object
unknown members are passed over, whatever they hold, but no known one may be written twice; in an
array members at the end may be missing.
-/
namespace TemplateStyles.Json

inductive Written where
  /-- A value that is no array and no object, if it is one. -/
  | leaf (v : Option Json)
  | arr (items : List Written)
  | obj (members : List (Option String × Written))
deriving Inhabited

namespace Written

mutual

/-- The value that is written, if every part of it is one. -/
def value? : Written → Option Json
  | .leaf v => v
  | .arr items => (values? items).map .arr
  | .obj members => (memberValues? members).map .obj

def values? : List Written → Option (List Json)
  | [] => some []
  | x :: r => (value? x).bind fun v => (values? r).map (v :: ·)

def memberValues? : List (Option String × Written) → Option (List (String × Json))
  | [] => some []
  | (key, x) :: r =>
    key.bind fun k => (value? x).bind fun v => (memberValues? r).map ((k, v) :: ·)

end

mutual

/-- The document that writes a value. -/
def ofValue : Json → Written
  | .arr items => .arr (ofValues items)
  | .obj members => .obj (ofMemberValues members)
  | v => .leaf (some v)

def ofValues : List Json → List Written
  | [] => []
  | v :: r => ofValue v :: ofValues r

def ofMemberValues : List (String × Json) → List (Option String × Written)
  | [] => []
  | (k, v) :: r => (some k, ofValue v) :: ofMemberValues r

end

mutual

/-- How many arrays and objects are open at once. -/
def depth : Written → Nat
  | .leaf _ => 0
  | .arr items => depthItems items + 1
  | .obj members => depthMembers members + 1

def depthItems : List Written → Nat
  | [] => 0
  | x :: r => max (depth x) (depthItems r)

def depthMembers : List (Option String × Written) → Nat
  | [] => 0
  | (_, x) :: r => max (depth x) (depthMembers r)

end

/-- A value that is no array and no object. -/
def leaf? : Written → Option Json
  | .leaf v => v
  | .arr _ | .obj _ => none

/-! ## Records -/

/-- Members by their keys; no key may be without a text. -/
def keyed? : List (Option String × Written) → Option (List (String × Written))
  | [] => some []
  | (key, x) :: r => key.bind fun k => (keyed? r).map ((k, x) :: ·)

/-- The members of a record with the given names that a document holds. -/
def record? (names : List String) : Written → Option (List (String × Written))
  | .obj members =>
    (keyed? members).bind fun members =>
      let known := members.filter (·.1 ∈ names)
      if (known.map Prod.fst).Nodup then some known else none
  | .arr items => if items.length ≤ names.length then some (names.zip items) else none
  | .leaf _ => none

/-! ## Reading members -/

def text? (w : Written) : Option String := w.leaf?.bind Json.text?

def bool? (w : Written) : Option Bool := w.leaf?.bind Json.bool?

def list? {α : Type} (item? : Written → Option α) : Written → Option (List α)
  | .arr items => items.mapM item?
  | _ => none

/-- A value that may be `null`. -/
def nullable? {α : Type} (value? : Written → Option α) : Written → Option (Option α)
  | .leaf (some .null) => some none
  | w => (value? w).map some

/-- A choice between names: the name itself, or an object with `null` under the name. -/
def choice? {α : Type} (named? : String → Option α) : Written → Option α
  | .leaf (some (.str name)) => named? name
  | .obj [(some name, .leaf (some .null))] => named? name
  | _ => none

/-- A member that has to be there. -/
def required? {α : Type} (name : String) (value? : Written → Option α)
    (members : List (String × Written)) : Option α :=
  (members.lookup name).bind value?

/-- A member that has a value of its own when it is missing. -/
def defaulted? {α : Type} (name : String) (default : α) (value? : Written → Option α)
    (members : List (String × Written)) : Option α :=
  match members.lookup name with
  | none => some default
  | some w => value? w

end Written

end TemplateStyles.Json
