import TemplateStyles.Json.Basic
import TemplateStyles.Marker
import TemplateStyles.Text.Character
/-!
# Style values

A style property has a number or a text. `StyleValue.ofText` types a value as it is written in a
style block: a number with or without one of the numeric units, whose unit is dropped; a text, out
of its quotes if it has them; or a text with markers, which stays as it is but for a unit behind
the last marker.

| here | in the program |
| --- | --- |
| `StyleValue.ofText` | `normalize_value` |
| `StyleValue.unquote?` | `strip_matching_quotes` |
| `StyleValue.numericUnits`, `StyleValue.readNumber?` | `NUMERIC_UNITS` |
| `StyleValue.hasMarker` | `has_placeholder` |
| `StyleValue.asText?` | `as_str` |
| `StyleValue.toJson` | `to_json` |
| `StyleMap.toJson` | `style_map_to_object` |
-/
namespace TemplateStyles

inductive StyleValue where
  | number (x : Binary64)
  | text (s : String)
deriving DecidableEq

instance : Inhabited StyleValue := ⟨.text ""⟩

/-- Style properties in insertion order. -/
abbrev StyleMap := OrderedMap StyleValue

namespace StyleValue

/-! ## Typing a written value -/

/-- The units that are dropped behind a number. -/
def numericUnits : List (List Char) := ["px".toList, "em".toList, "rem".toList]

/-- A number without sign: digits, perhaps a point and digits, perhaps a unit. -/
def readUnsigned? (negative : Bool) (s : List Char) : Option Binary64 :=
  match takeDigits s with
  | ([], _) => none
  | (whole, rest) => match scanFraction? rest with
    | none => none
    | some (fraction, rest) =>
      if rest.isEmpty || numericUnits.any (· == rest) then
        let places := fraction.getD []
        some (.ofDecimal negative (Text.Digit.valueFrom 0 (whole ++ places)) places.length)
      else none

/-- The number that a text writes: perhaps a minus sign, then a number without sign. -/
def readNumber? : List Char → Option Binary64
  | '-' :: r => readUnsigned? true r
  | s => readUnsigned? false s

/-- What stands between two equal quotes at the ends of a text. -/
def unquote? : List Char → Option (List Char)
  | q :: c :: r =>
    if (q = '"' ∨ q = '\'') ∧ (c :: r).getLast? = some q then some (c :: r).dropLast else none
  | _ => none

/-- The value that a text without outer blanks writes. -/
def ofTrimmed (s : List Char) : StyleValue :=
  if (Marker.first? s).isSome then .text (String.ofList (Marker.dropUnit s))
  else match readNumber? s with
    | some x => .number x
    | none => .text (String.ofList ((unquote? s).getD s))

/-- The value that a text in a style block writes. -/
def ofText (written : String) : StyleValue := ofTrimmed (Text.trimChars written.toList)

/-! ## Views -/

def asText? : StyleValue → Option String
  | text s => some s
  | number _ => none

/-- Only a text can hold a marker. -/
def hasMarker : StyleValue → Bool
  | text s => Marker.occursIn s
  | number _ => false

/-- The value as it stands in generated text. -/
def display : StyleValue → String
  | number x => x.text
  | text s => s

/-- The value in a document; a number that is not finite has no form there. -/
def toJson : StyleValue → Json
  | number x => match JsonNumber.ofBinary64? x with
    | some n => .num n
    | none => .null
  | text s => .str s

end StyleValue

namespace StyleMap

def toJson (m : StyleMap) : OrderedMap Json := m.mapValues StyleValue.toJson

end StyleMap

end TemplateStyles
