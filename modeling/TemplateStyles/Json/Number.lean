import TemplateStyles.Number.Layout
import TemplateStyles.Text.Character
/-!
# JSON numbers

A number without fraction and exponent that fits in 64 bits, signed or unsigned, is kept exactly;
every other one is a double. A double is read in two roundings: the leading digits that fit in 64
bits form a significand, which is rounded to a double and then multiplied or divided by the
double nearest to a power of ten. A literal beyond the doubles writes no number.

In the program, `JsonNumber.ofBinary64?` is `number_value`.
-/
namespace TemplateStyles

inductive JsonNumber where
  | int (n : Int)
  | double (negative : Bool) (magnitude : Magnitude)
deriving DecidableEq

/-! ## Scaling by powers of ten -/

namespace Magnitude

def times? (a b : Magnitude) : Option Magnitude :=
  nearest? (a.numerator * b.numerator) (denominator * denominator)

def dividedBy (a b : Magnitude) : Magnitude := (nearest? a.numerator b.numerator).getD zero

/-- The double nearest to `10 ^ k`, for `k` up to 308. -/
def tenTo (k : Nat) : Magnitude := (nearest? (Nat.pow 10 k) 1).getD zero

/-- `m / 10 ^ k`, in steps of at most 308 places. -/
def scaleDown (m : Magnitude) (k : Nat) : Magnitude :=
  if k ≤ 308 then m.dividedBy (tenTo k)
  else if m.mantissa = 0 then m
  else (m.dividedBy (tenTo 308)).scaleDown (k - 308)
termination_by k

/-- `m · 10 ^ exponent`; `none` beyond the largest double. -/
def scale? (m : Magnitude) (exponent : Int) : Option Magnitude :=
  if exponent < 0 then some (m.scaleDown (-exponent).toNat)
  else if exponent ≤ 308 then m.times? (tenTo exponent.toNat)
  else if m.mantissa = 0 then some m
  else none

end Magnitude

/-! ## Literals -/

/-- The parts of a number as written. -/
structure NumberLiteral where
  negative : Bool
  whole : List Char
  fraction : Option (List Char)
  exponent : Option Int
deriving DecidableEq, Repr

/-- Reads digits into a significand as long as it fits in 64 bits; also the digits left over. -/
def significand (n : Nat) : List Char → Nat × List Char
  | [] => (n, [])
  | d :: r =>
    let n' := 10 * n + Text.Digit.value d
    if n' < UInt64.size then significand n' r else (n, d :: r)

namespace NumberLiteral

/-- The magnitude that the literal is read as; `none` beyond the largest double. -/
def magnitude? (l : NumberLiteral) : Option Magnitude :=
  let fraction := l.fraction.getD []
  let (n, wholeLeft) := significand 0 l.whole
  let (n, fractionLeft) := significand n fraction
  let exponent : Int :=
    (wholeLeft.length : Int) - (fraction.length - fractionLeft.length : Nat) + l.exponent.getD 0
  ((Magnitude.nearest? n 1).getD .zero).scale? exponent

/-- The whole number that the literal writes, if it is one of 64 bits and not a negative zero. -/
def toInt? (l : NumberLiteral) : Option Int :=
  let n := Text.Digit.valueFrom 0 l.whole
  if l.fraction.isSome || l.exponent.isSome then none
  else if l.negative then if 0 < n ∧ n ≤ UInt64.size / 2 then some (-n) else none
  else if n < UInt64.size then some n else none

def toNumber? (l : NumberLiteral) : Option JsonNumber :=
  match l.toInt? with
  | some n => some (.int n)
  | none => l.magnitude?.map (.double l.negative)

end NumberLiteral

/-! ## Reading and writing -/

/-- A row of digits at the front of a text, and what follows it. -/
def takeDigits (s : List Char) : List Char × List Char :=
  (s.takeWhile Text.Digit.isAscii, s.dropWhile Text.Digit.isAscii)

/-- The fraction at the front of a text: a point calls for at least one digit. -/
def scanFraction? : List Char → Option (Option (List Char) × List Char)
  | '.' :: r => match takeDigits r with
    | ([], _) => none
    | (ds, r) => some (some ds, r)
  | s => some (none, s)

/-- The digits of an exponent, its sign already read. -/
def scanExponentDigits? (negative : Bool) (s : List Char) : Option (Option Int × List Char) :=
  match takeDigits s with
  | ([], _) => none
  | (ds, r) =>
    let n : Int := Text.Digit.valueFrom 0 ds
    some (some (if negative then -n else n), r)

def scanExponent? : List Char → Option (Option Int × List Char)
  | 'e' :: '-' :: r | 'E' :: '-' :: r => scanExponentDigits? true r
  | 'e' :: '+' :: r | 'E' :: '+' :: r => scanExponentDigits? false r
  | 'e' :: r | 'E' :: r => scanExponentDigits? false r
  | s => some (none, s)

/-- The whole part: one zero, or digits that do not start with a zero. -/
def scanWhole? : List Char → Option (List Char × List Char)
  | '0' :: r => some (['0'], r)
  | s => match takeDigits s with
    | ([], _) => none
    | (ds, r) => some (ds, r)

/-- A number at the front of a text, its sign already read, and what follows it. -/
def scanUnsigned? (negative : Bool) (s : List Char) : Option (NumberLiteral × List Char) := do
  let (whole, s) ← scanWhole? s
  let (fraction, s) ← scanFraction? s
  let (exponent, s) ← scanExponent? s
  return (⟨negative, whole, fraction, exponent⟩, s)

def scanNumber? : List Char → Option (NumberLiteral × List Char)
  | '-' :: r => scanUnsigned? true r
  | s => scanUnsigned? false s

namespace JsonNumber

/-- The double nearest to the number. -/
def toBinary64 : JsonNumber → Binary64
  | int n => .ofInt n
  | double negative m => .finite negative m

/-- The number that a computed double is in a document: whole ones below `2 ^ 53` are integers,
values that are not finite have none. -/
def ofBinary64? (x : Binary64) : Option JsonNumber :=
  match x.toSmallInt?, x with
  | some n, _ => some (.int n)
  | none, .finite negative m => some (.double negative m)
  | none, _ => none

def text : JsonNumber → String
  | int n => toString n
  | double negative m => (Binary64.finite negative m).layout .json

end JsonNumber

end TemplateStyles
