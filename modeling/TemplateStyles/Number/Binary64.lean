/-!
# Doubles

A double as an exact value: a sign and a magnitude `mantissa · 2 ^ scale / 2 ^ 1074`, an infinity,
or "not a number". Every finite magnitude has one representation (`Magnitude.canonical`), so
equality of doubles is equality of values, except that there are two zeros.

`Magnitude.nearest?` rounds a fraction to the nearest magnitude, a tie to the even mantissa, and
answers `none` beyond the largest double. Reading decimals and scaling by powers of ten are
special cases; no other arithmetic is needed.

In the program, `Binary64.toSmallInt?` is `is_integral`.
-/
namespace TemplateStyles

/-- The finite nonnegative doubles. A mantissa has at most 53 bits, and all of them unless the scale
is the least one. -/
structure Magnitude where
  mantissa : Nat
  scale : Nat
  mantissa_lt : mantissa < 0x20000000000000
  scale_le : scale ≤ 2045
  canonical : scale = 0 ∨ 0x10000000000000 ≤ mantissa
deriving DecidableEq

inductive Binary64 where
  | nan
  | infinite (negative : Bool)
  | finite (negative : Bool) (magnitude : Magnitude)
deriving DecidableEq

namespace Magnitude

/-- Twice the scale of the least positive double: `numerator / 2 ^ 1074` is the value. -/
def denominator : Nat := Nat.pow 2 1074

def numerator (m : Magnitude) : Nat := m.mantissa * Nat.pow 2 m.scale

def zero : Magnitude := ⟨0, 0, by decide, by decide, .inl rfl⟩

instance : Inhabited Magnitude := ⟨zero⟩

/-- The magnitude with this mantissa and scale, if they are in the canonical range. -/
def ofParts? (mantissa scale : Nat) : Option Magnitude :=
  if h : mantissa < 0x20000000000000 ∧ scale ≤ 2045 ∧
      (scale = 0 ∨ 0x10000000000000 ≤ mantissa) then
    some ⟨mantissa, scale, h.1, h.2.1, h.2.2⟩
  else none

/-- `num / den` to the nearest whole number, a tie to the even one. -/
def roundDiv (num den : Nat) : Nat :=
  let q := num / den
  let r := num % den
  if 2 * r < den ∨ (2 * r = den ∧ q % 2 = 0) then q else q + 1

/-- The magnitude nearest to `num / den`; `none` beyond the largest one. -/
def nearest? (num den : Nat) : Option Magnitude :=
  let scaled := num * denominator
  let scale := Nat.log2 (scaled / den) - 52
  let mantissa := roundDiv scaled (den * Nat.pow 2 scale)
  if mantissa = 0x20000000000000 then ofParts? 0x10000000000000 (scale + 1)
  else ofParts? mantissa scale

/-- The rounded mantissa of `nearest?` never passes `2 ^ 53`. -/
theorem roundDiv_le (n den : Nat) :
    roundDiv n (den * Nat.pow 2 (Nat.log2 (n / den) - 52)) ≤ 0x20000000000000 := by
  have hlog : n / den < 2 ^ ((n / den).log2 + 1) := Nat.lt_log2_self
  have hq : n / (den * Nat.pow 2 ((n / den).log2 - 52)) < 2 ^ 53 := by
    rw [Nat.pow_eq]
    rw [← Nat.div_div_eq_div_mul]
    apply (Nat.div_lt_iff_lt_mul (Nat.two_pow_pos _)).2
    rw [← Nat.pow_add]
    exact Nat.lt_of_lt_of_le hlog (Nat.pow_le_pow_right (by decide) (by omega))
  simp only [roundDiv]
  split <;> omega

end Magnitude

namespace Binary64

def zero : Binary64 := .finite false .zero

instance : Inhabited Binary64 := ⟨zero⟩

/-- A signed double from a rounded magnitude: what is too large becomes infinite. -/
def ofRounded (negative : Bool) : Option Magnitude → Binary64
  | some m => .finite negative m
  | none => .infinite negative

/-- The double nearest to `digits / 10 ^ places`. -/
def ofDecimal (negative : Bool) (digits places : Nat) : Binary64 :=
  ofRounded negative (Magnitude.nearest? digits (Nat.pow 10 places))

/-- The double nearest to a whole number. -/
def ofInt (n : Int) : Binary64 := ofDecimal (n < 0) n.natAbs 0

def isFinite : Binary64 → Bool
  | .finite _ _ => true
  | _ => false

/-- The whole number that a double of magnitude below `2 ^ 53` is, if it is one. -/
def toSmallInt? : Binary64 → Option Int
  | .finite negative m =>
    if m.numerator % Magnitude.denominator = 0 ∧
        m.numerator / Magnitude.denominator < 0x20000000000000 then
      let n : Int := m.numerator / Magnitude.denominator
      some (if negative then -n else n)
    else none
  | _ => none

/-- Equality of numbers: the two zeros are one number, and "not a number" equals nothing. -/
def sameNumber : Binary64 → Binary64 → Bool
  | .nan, _ | _, .nan => false
  | .finite s m, .finite t n => m == n && (s == t || m.mantissa == 0)
  | x, y => x == y

end Binary64

end TemplateStyles
