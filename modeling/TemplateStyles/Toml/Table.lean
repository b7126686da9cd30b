/-!
# TOML tables

The tables of a TOML document while it is read. How a table came to be decides what may still be
added to it: one that a header names is complete, one that only leads to others can get its header
later, and one that dotted keys made takes further dotted keys. No key is ever given twice.
-/
namespace TemplateStyles.Toml

/-- A value as it is written. -/
inductive Value where
  | text (s : String)
  | bool (b : Bool)
  /-- A number or a time. -/
  | scalar (written : String)
  | array (items : List Value)
  | table (members : List (String × Value))
deriving Inhabited

/-- How a table came to be. -/
inductive Origin where
  /-- A header names it. -/
  | header
  /-- It leads to a table that a header names. -/
  | implied
  /-- A dotted key leads through it. -/
  | dotted
deriving DecidableEq, Repr

/-- What a key stands for while a document is read. -/
inductive Node where
  | value (v : Value)
  | table (origin : Origin) (members : List (String × Node))
  /-- The tables under one name, the latest first. -/
  | tables (elements : List (List (String × Node)))
deriving Inhabited

abbrev Members := List (String × Node)

namespace Members

/-- A node in place of the one under the same key, or at the end. -/
def put (key : String) (n : Node) : Members → Members
  | [] => [(key, n)]
  | (key', n') :: r => if key' = key then (key, n) :: r else (key', n') :: put key n r

/-- Gives a value to a key, through the tables that dotted keys lead to. -/
def assign (value : Value) (key : String) : List String → Members → Option Members
  | [], m => if (m.lookup key).isSome then none else some (m.put key (.value value))
  | [name], m =>
    match m.lookup name with
    | none => some (m.put name (.table .dotted [(key, .value value)]))
    | some (.table .dotted inner) =>
      if (List.lookup key inner).isSome then none
      else some (m.put name (.table .dotted (put key (.value value) inner)))
    | some _ => none
  | name :: rest, m =>
    match m.lookup name with
    | none => (assign value key rest []).map fun inner => m.put name (.table .dotted inner)
    | some (.table .header _) | some (.value _) | some (.tables []) => none
    | some (.table origin inner) =>
      (assign value key rest inner).map fun inner => m.put name (.table origin inner)
    | some (.tables (last :: before)) =>
      (assign value key rest last).map fun last => m.put name (.tables (last :: before))

/-- Changes the members of the table that names lead to; of several tables under one name the last
counts. Tables on the way are made if they are missing. -/
def within (change : Members → Option Members) : List String → Members → Option Members
  | [], m => change m
  | name :: rest, m =>
    match m.lookup name with
    | none => (within change rest []).map fun inner => m.put name (.table .implied inner)
    | some (.value _) | some (.tables []) => none
    | some (.table origin inner) =>
      (within change rest inner).map fun inner => m.put name (.table origin inner)
    | some (.tables (last :: before)) =>
      (within change rest last).map fun last => m.put name (.tables (last :: before))

/-- Opens the table of a header. -/
def openTable (name : String) (m : Members) : Option Members :=
  match m.lookup name with
  | none => some (m.put name (.table .header []))
  | some (.table .implied inner) => some (m.put name (.table .header inner))
  | some _ => none

/-- Opens a further table under the name of a header. -/
def openElement (name : String) (m : Members) : Option Members :=
  match m.lookup name with
  | none => some (m.put name (.tables [[]]))
  | some (.tables elements) => some (m.put name (.tables ([] :: elements)))
  | some _ => none

end Members

/-! ## Finished tables -/

mutual

def Node.toValue : Node → Value
  | .value v => v
  | .table _ members => .table (Members.toValues members)
  | .tables elements => .array (Members.toTables elements).reverse

def Members.toValues : List (String × Node) → List (String × Value)
  | [] => []
  | (key, n) :: r => (key, n.toValue) :: Members.toValues r

def Members.toTables : List (List (String × Node)) → List Value
  | [] => []
  | m :: r => .table (Members.toValues m) :: Members.toTables r

end

end TemplateStyles.Toml
