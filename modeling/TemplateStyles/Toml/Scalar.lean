import TemplateStyles.Text.Character
/-!
# TOML numbers and times

Whether a text writes a number or a time. Digits may be grouped by single underscores; whole
numbers have 64 bits and no needless zeros in front; times are checked down to the number of days
in their month.
-/
namespace TemplateStyles.Toml

open Text (Digit.isAscii Digit.valueFrom)

/-! ## Numbers -/

/-- Digits with single underscores between them. -/
def isGrouped (isDigit : Char → Bool) (s : List Char) : Bool :=
  (s.splitOn '_').all fun group => group ≠ [] && group.all isDigit

def isDigits (s : List Char) : Bool := isGrouped Digit.isAscii s

/-- Digits without a needless zero in front. -/
def isWhole (s : List Char) : Bool := isDigits s && (s.length ≤ 1 || s.head? ≠ some '0')

def dropSign : List Char → List Char
  | '+' :: r | '-' :: r => r
  | s => s

/-- The value of digits in a base, underscores left out. -/
def valueIn (base : Nat) (digit : Char → Nat) (s : List Char) : Nat :=
  (s.filter (· ≠ '_')).foldl (fun n d => base * n + digit d) 0

def isHex (c : Char) : Bool := Digit.isAscii c || ('a' ≤ c && c ≤ 'f') || ('A' ≤ c && c ≤ 'F')

def hexDigit (c : Char) : Nat :=
  if Digit.isAscii c then c.toNat - 48 else if c ≤ 'F' then c.toNat - 55 else c.toNat - 87

/-- Whether a number fits in 64 bits beside a sign. -/
def isSigned64 (negative : Bool) (n : Nat) : Bool :=
  n < UInt64.size / 2 || (negative && n == UInt64.size / 2)

/-- A whole number, in one of four bases. -/
def isInteger (s : List Char) : Bool :=
  match s with
  | '0' :: 'x' :: r => isGrouped isHex r && isSigned64 false (valueIn 16 hexDigit r)
  | '0' :: 'o' :: r =>
    isGrouped (fun c => '0' ≤ c && c ≤ '7') r && isSigned64 false (valueIn 8 hexDigit r)
  | '0' :: 'b' :: r =>
    isGrouped (fun c => c == '0' || c == '1') r && isSigned64 false (valueIn 2 hexDigit r)
  | _ => isWhole (dropSign s) &&
    isSigned64 (s.head? == some '-') (valueIn 10 hexDigit (dropSign s))

/-- A number with a fraction, an exponent or both, or one of the special ones. -/
def isFloat (s : List Char) : Bool :=
  let s := dropSign s
  let mantissa := s.takeWhile fun c => c ≠ 'e' && c ≠ 'E'
  let whole := mantissa.takeWhile (· ≠ '.')
  let fractionOk := match mantissa.dropWhile (· ≠ '.') with
    | [] => true
    | _ :: digits => isDigits digits
  let exponentOk := match s.drop mantissa.length with
    | [] => '.' ∈ mantissa
    | _ :: digits => isDigits (dropSign digits)
  s = "inf".toList || s = "nan".toList || (isWhole whole && fractionOk && exponentOk)

/-! ## Times -/

/-- A number of exactly so many digits at the front of a text. -/
def fixedDigits? (count : Nat) (s : List Char) : Option (Nat × List Char) :=
  let digits := s.take count
  if digits.length = count && digits.all Digit.isAscii then
    some (Digit.valueFrom 0 digits, s.drop count)
  else none

def expect? (c : Char) : List Char → Option (List Char)
  | [] => none
  | c' :: r => if c' = c then some r else none

def isLeapYear (year : Nat) : Bool := (year % 4 = 0 && year % 100 ≠ 0) || year % 400 = 0

def daysIn (year month : Nat) : Nat :=
  if month = 2 then if isLeapYear year then 29 else 28
  else if month ∈ [4, 6, 9, 11] then 30
  else 31

/-- A date at the front of a text; what follows it. -/
def date? (s : List Char) : Option (List Char) := do
  let (year, s) ← fixedDigits? 4 s
  let s ← expect? '-' s
  let (month, s) ← fixedDigits? 2 s
  let s ← expect? '-' s
  let (day, s) ← fixedDigits? 2 s
  if 1 ≤ month ∧ month ≤ 12 ∧ 1 ≤ day ∧ day ≤ daysIn year month then some s else none

/-- The parts of a second, if there are any. -/
def partialSecond? : List Char → Option (List Char)
  | '.' :: r =>
    if (r.takeWhile Digit.isAscii) = [] then none else some (r.dropWhile Digit.isAscii)
  | s => some s

/-- A time of day at the front of a text; what follows it. -/
def time? (s : List Char) : Option (List Char) := do
  let (hour, s) ← fixedDigits? 2 s
  let s ← expect? ':' s
  let (minute, s) ← fixedDigits? 2 s
  let s ← expect? ':' s
  let (second, s) ← fixedDigits? 2 s
  if hour ≤ 23 ∧ minute ≤ 59 ∧ second ≤ 60 then partialSecond? s else none

/-- The distance from universal time, or nothing at all. -/
def isOffset (s : List Char) : Bool :=
  match s with
  | [] | ['Z'] | ['z'] => true
  | sign :: r =>
    (sign == '+' || sign == '-') &&
      (match (do
          let (hour, r) ← fixedDigits? 2 r
          let r ← expect? ':' r
          let (minute, r) ← fixedDigits? 2 r
          if hour ≤ 23 ∧ minute ≤ 59 then some r else none : Option (List Char)) with
        | some [] => true
        | _ => false)

/-- A time of day, a date, or both with a letter or a blank between them. -/
def isTime (s : List Char) : Bool :=
  match date? s with
  | some [] => true
  | some (c :: r) =>
    (c == 'T' || c == 't' || c == ' ') && (time? r).any isOffset
  | none => time? s = some []

/-! ## Scalars -/

def isScalarChar (c : Char) : Bool :=
  c.isAlphanum || c == '+' || c == '-' || c == '_' || c == '.' || c == ':'

/-- The text of a scalar at the front of a text, and what follows it. A time of day may follow a
date behind a blank. -/
def takeScalar (s : List Char) : List Char × List Char :=
  let first := s.takeWhile isScalarChar
  let rest := s.dropWhile isScalarChar
  match rest with
  | ' ' :: d :: r =>
    if date? first = some [] ∧ Digit.isAscii d then
      (first ++ ' ' :: (d :: r).takeWhile isScalarChar, (d :: r).dropWhile isScalarChar)
    else (first, rest)
  | _ => (first, rest)

def isScalar (s : List Char) : Bool := isInteger s || isFloat s || isTime s

end TemplateStyles.Toml
