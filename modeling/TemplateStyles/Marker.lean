import TemplateStyles.Text.Character
/-!
# Markers

A marker stands in the text of a style block for the expression that is interpolated there:
`__EXPR_`, the expression's index in decimal digits, `__`. Digits of every script make a marker,
but only ASCII digits of a 64-bit number name an expression (`index?`).

| here | in the program |
| --- | --- |
| `Marker.opening`, `Marker.closing` | `PLACEHOLDER_PREFIX`, `PLACEHOLDER_SUFFIX` |
| `Marker.ofIndex` | `placeholder` |
| `Marker.occursIn` | `contains_placeholder` |
| `Marker.index?` | `placeholder_index` |
| `Marker.units`, `Marker.dropUnit` | `PLACEHOLDER_UNITS` |
| `Marker.join` | `build_css_string` |
-/
namespace TemplateStyles.Marker

def opening : List Char := "__EXPR_".toList

def closing : List Char := "__".toList

/-- The marker of the expression at `index`. -/
def ofIndex (index : Nat) : String :=
  String.ofList (opening ++ (Nat.repr index).toList ++ closing)

/-! ## Finding markers -/

/-- The digits of a marker at the front of a text, and what follows the marker. -/
def scan? : List Char → Option (List Char × List Char)
  | '_' :: '_' :: 'E' :: 'X' :: 'P' :: 'R' :: '_' :: r =>
    match r.takeWhile Text.Digit.isDecimal, r.dropWhile Text.Digit.isDecimal with
    | [], _ => none
    | d :: ds, '_' :: '_' :: rest => some (d :: ds, rest)
    | _, _ => none
  | _ => none

/-- The digits of the first marker in a text. -/
def first? : List Char → Option (List Char)
  | [] => none
  | c :: r => match scan? (c :: r) with
    | some (ds, _) => some ds
    | none => first? r

def occursIn (s : String) : Bool := (first? s.toList).isSome

/-- The index that the first marker in a text names. -/
def index? (s : String) : Option Nat :=
  (first? s.toList).bind fun ds =>
    (Text.Digit.readNat? ds).bind fun n => if n < UInt64.size then some n else none

/-! ## Units behind markers -/

/-- The units that are dropped behind a marker: the value of the expression has its own. -/
def units : List (List Char) :=
  ["px".toList, "em".toList, "rem".toList, "pt".toList, "vh".toList, "vw".toList, "%".toList]

/-- Whether a text is one of the units, in either case. -/
def isUnit (s : List Char) : Bool := s.map Char.toLower ∈ units

/-- Drops a unit that stands at the end of a text right behind a marker. -/
def dropUnit : List Char → List Char
  | [] => []
  | c :: r => match scan? (c :: r) with
    | some (ds, rest) => if isUnit rest then opening ++ ds ++ closing else c :: dropUnit r
    | none => c :: dropUnit r

/-! ## Joining template parts -/

/-- The parts of a template with a marker between each two, from `index` on: one for every
expression that has an index below `count`. -/
def joinFrom (count : Nat) : Nat → List String → String
  | _, [] => ""
  | _, [part] => part
  | index, part :: next :: rest =>
    part ++ (if index < count then ofIndex index else "") ++
      joinFrom count (index + 1) (next :: rest)

def join (parts : List String) (count : Nat) : String := joinFrom count 0 parts

end TemplateStyles.Marker
