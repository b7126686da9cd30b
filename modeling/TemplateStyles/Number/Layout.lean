import TemplateStyles.Number.Binary64
/-!
# Number texts

Every double owns the interval of reals that round to it. `Magnitude.shortest` finds the coarsest
decimal grid that has a point in this interval, that is the fewest digits that read back as the
same double, and takes the nearer of two such points. If both are equally near, the caller's
`Tie` decides. All comparisons are between natural numbers: the value and the ends of its interval
are kept as numerators over four times the common denominator.

A `NumberLayout` says how these digits are laid out: where positional notation ends, whether a
whole number keeps its `.0`, how the exponent is marked, which way ties go, and what stands for
the values that have no digits. There are three of them: `plain` for generated text, `json` for
JSON documents and `debug` for value dumps.

In the program, `Binary64.text` is `format_number`.
-/
namespace TemplateStyles

/-! ## The shortest decimal -/

/-- `digits · 10 ^ exponent`. -/
structure Decimal where
  digits : Nat
  exponent : Int
deriving DecidableEq, Repr, Inhabited

/-- Which of two equally near decimals is taken. -/
inductive Tie where
  | even
  | up
deriving DecidableEq, Repr

namespace Magnitude

/-- Four times `denominator`, over which value and interval ends are whole. -/
def quarter : Nat := 4 * denominator

/-- The lower end of the interval that rounds to `m`: below a power of two the doubles stand
twice as close. -/
def lowerEnd (m : Magnitude) : Nat :=
  if m.mantissa = 0x10000000000000 ∧ m.scale ≠ 0 then (4 * m.mantissa - 1) * Nat.pow 2 m.scale
  else (4 * m.mantissa - 2) * Nat.pow 2 m.scale

def upperEnd (m : Magnitude) : Nat := (4 * m.mantissa + 2) * Nat.pow 2 m.scale

/-- Whether `num / den` (over `quarter`) rounds to `m`. The ends do so when the mantissa is even. -/
def owns (m : Magnitude) (num den : Nat) : Bool :=
  if m.mantissa % 2 = 0 then m.lowerEnd * den ≤ num && num ≤ m.upperEnd * den
  else m.lowerEnd * den < num && num < m.upperEnd * den

/-- The best decimal with the given exponent, if one rounds to `m`. -/
def onGrid? (tie : Tie) (m : Magnitude) (exponent : Int) : Option Decimal :=
  let step := quarter * Nat.pow 10 exponent.toNat
  let den := Nat.pow 10 (-exponent).toNat
  let value := 4 * m.numerator * den
  let below := value / step
  let rest := value % step
  let lowOk := m.owns (below * step) den
  let highOk := m.owns ((below + 1) * step) den
  let takeLow :=
    if 2 * rest < step then true
    else if 2 * rest = step then tie == .even && below % 2 == 0
    else false
  if lowOk && (takeLow || !highOk) then some ⟨below, exponent⟩
  else if highOk then some ⟨below + 1, exponent⟩
  else none

/-- All digits of `m`. -/
def exact (m : Magnitude) : Decimal := ⟨m.numerator * Nat.pow 5 1074, -1074⟩

/-- Tries the exponents from `exponent` downwards. Seventeen digits suffice, so the exact decimal at
the end is never reached. -/
def searchGrids (tie : Tie) (m : Magnitude) : Nat → Int → Decimal
  | 0, _ => m.exact
  | steps + 1, exponent =>
    (m.onGrid? tie exponent).getD (searchGrids tie m steps (exponent - 1))

/-- An exponent that no decimal of `m` with one digit exceeds. -/
def topExponent (m : Magnitude) : Int :=
  ((m.mantissa.log2 : Int) + m.scale - 1073) * 30103 / 100000 + 1

/-- The shortest decimal that rounds to `m`, nearest to it among those. -/
def shortest (tie : Tie) (m : Magnitude) : Decimal :=
  if m.mantissa = 0 then ⟨0, 0⟩ else m.searchGrids tie 20 m.topExponent

end Magnitude

/-! ## Layouts -/

structure NumberLayout where
  /-- The least exponent of the first digit that is written positionally; `none` if all are. -/
  least : Option Int
  /-- The first exponent that is no longer written positionally; `none` if all are. -/
  bound : Option Int
  /-- Whether a whole number in positional notation ends in `.0`. -/
  keepsPoint : Bool
  /-- What marks a positive exponent after the `e`. -/
  plus : List Char
  tie : Tie
deriving DecidableEq, Repr

namespace NumberLayout

/-- Generated text writes plain decimals, however long. -/
def plain : NumberLayout := ⟨none, none, false, [], .up⟩

/-- JSON documents are positional from `1e-5` to below `1e+16` and keep the point. -/
def json : NumberLayout := ⟨some (-5), some 16, true, ['+'], .even⟩

/-- Value dumps are positional from `1e-4` to below `1e16` and keep the point. -/
def debug : NumberLayout := ⟨some (-4), some 16, true, [], .up⟩

def isPositional (f : NumberLayout) (exponent : Int) : Bool :=
  f.least.all (· ≤ exponent) && f.bound.all (exponent < ·)

end NumberLayout

/-! ## Digits -/

/-- The decimal digits of a number, most significant first. -/
def digitsOf (n : Nat) : List Char := Nat.toDigits 10 n

/-- Without the zeros at the end. -/
def dropTrailingZeros (ds : List Char) : List Char :=
  (ds.reverse.dropWhile (· == '0')).reverse

/-- Positional notation of significant digits whose first one stands for `10 ^ exponent`. -/
def positional (keepsPoint : Bool) (ds : List Char) (exponent : Int) : List Char :=
  if exponent < 0 then
    '0' :: '.' :: (List.replicate (-exponent - 1).toNat '0' ++ ds)
  else
    let whole := exponent.toNat + 1
    if ds.length ≤ whole then
      ds ++ List.replicate (whole - ds.length) '0' ++ if keepsPoint then ['.', '0'] else []
    else ds.take whole ++ '.' :: ds.drop whole

/-- Scientific notation: one digit, the others behind a point, the exponent behind an `e`. -/
def scientific (plus : List Char) (ds : List Char) (exponent : Int) : List Char :=
  let mantissa := match ds with
    | [] => []
    | d :: [] => [d]
    | d :: rest => d :: '.' :: rest
  let sign := if exponent < 0 then ['-'] else plus
  mantissa ++ 'e' :: sign ++ digitsOf exponent.natAbs

namespace Magnitude

def layout (f : NumberLayout) (m : Magnitude) : List Char :=
  let d := m.shortest f.tie
  let all := digitsOf d.digits
  let exponent := d.exponent + all.length - 1
  if d.digits = 0 then positional f.keepsPoint ['0'] 0
  else if f.isPositional exponent then positional f.keepsPoint (dropTrailingZeros all) exponent
  else scientific f.plus (dropTrailingZeros all) exponent

end Magnitude

namespace Binary64

/-- The text of a double in a layout; the values without digits have the same text in all. -/
def layout (f : NumberLayout) : Binary64 → String
  | .nan => "NaN"
  | .infinite negative => if negative then "-inf" else "inf"
  | .finite negative m =>
    String.ofList ((if negative then ['-'] else []) ++ m.layout f)

/-- The text of a number in generated code: whole numbers below `2 ^ 53` as integers (so both
zeros are `0`), all others as plain decimals. -/
def text (x : Binary64) : String :=
  match x.toSmallInt? with
  | some n => toString n
  | none => x.layout .plain

end Binary64

end TemplateStyles
