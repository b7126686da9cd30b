/-!
# Blanks and digits

Two classes of characters and what is made of them. `isBlank` is the Unicode property
`White_Space`: `trim` removes blanks at both ends of a text, and `words` cuts it into its runs of
other characters. The zero-width characters U+200B and U+FEFF are not blank.

`Digit.isDecimal` is the Unicode category `Nd`, ten consecutive characters in each script that has
digits of its own; `Digit.isAscii` is `0` to `9`, the only digits that are read as numbers.
`Digit.readNat?` reads a number from ASCII digits and `Nat.repr` writes one.
-/
namespace TemplateStyles.Text

/-! ## Blanks -/

/-- The property `White_Space`, as inclusive ranges of code points. -/
def blankRanges : List (Nat × Nat) :=
  [(0x9, 0xD), (0x20, 0x20), (0x85, 0x85), (0xA0, 0xA0), (0x1680, 0x1680), (0x2000, 0x200A),
   (0x2028, 0x2029), (0x202F, 0x202F), (0x205F, 0x205F), (0x3000, 0x3000)]

def isBlank (c : Char) : Bool := blankRanges.any fun r => r.1 ≤ c.toNat && c.toNat ≤ r.2

/-- Without the blanks at the front. -/
def trimStart (s : List Char) : List Char := s.dropWhile isBlank

/-- Without the blanks at the end. -/
def trimEnd (s : List Char) : List Char := (s.reverse.dropWhile isBlank).reverse

def trimChars (s : List Char) : List Char := trimEnd (trimStart s)

/-- Without the blanks at both ends. -/
def trim (s : String) : String := String.ofList (trimChars s.toList)

def hasBlank (s : String) : Bool := s.toList.any isBlank

def isBlankText (s : String) : Bool := s.toList.all isBlank

/-- The longest runs of characters that are not blank. -/
def words (s : String) : List String :=
  ((s.toList.splitOnP isBlank).filter (· ≠ [])).map String.ofList

/-! ## Digits -/

namespace Digit

/-- The code points of the zeros of category `Nd`; nine more digits follow each of them. -/
def zeros : List Nat :=
  [0x30, 0x660, 0x6F0, 0x7C0, 0x966, 0x9E6, 0xA66, 0xAE6, 0xB66, 0xBE6, 0xC66, 0xCE6, 0xD66,
   0xDE6, 0xE50, 0xED0, 0xF20, 0x1040, 0x1090, 0x17E0, 0x1810, 0x1946, 0x19D0, 0x1A80, 0x1A90,
   0x1B50, 0x1BB0, 0x1C40, 0x1C50, 0xA620, 0xA8D0, 0xA900, 0xA9D0, 0xA9F0, 0xAA50, 0xABF0,
   0xFF10, 0x104A0, 0x10D30, 0x10D40, 0x11066, 0x110F0, 0x11136, 0x111D0, 0x112F0, 0x11450,
   0x114D0, 0x11650, 0x116C0, 0x116D0, 0x116DA, 0x11730, 0x118E0, 0x11950, 0x11BF0, 0x11C50,
   0x11D50, 0x11DA0, 0x11F50, 0x16130, 0x16A60, 0x16AC0, 0x16B50, 0x16D70, 0x1CCF0, 0x1D7CE,
   0x1D7D8, 0x1D7E2, 0x1D7EC, 0x1D7F6, 0x1E140, 0x1E2F0, 0x1E4F0, 0x1E5F1, 0x1E950, 0x1FBF0]

/-- A digit of any script. -/
def isDecimal (c : Char) : Bool := zeros.any fun z => z ≤ c.toNat && c.toNat < z + 10

/-- A digit that is read as part of a number. -/
def isAscii (c : Char) : Bool := '0' ≤ c && c ≤ '9'

theorem isDecimal_of_isAscii {c : Char} (h : isAscii c = true) : isDecimal c = true := by
  simp only [isAscii, Bool.and_eq_true, decide_eq_true_eq] at h
  have h0 : 48 ≤ c.toNat := h.1
  have h9 : c.toNat ≤ 57 := h.2
  simp only [isDecimal, List.any_eq_true, Bool.and_eq_true, decide_eq_true_eq]
  exact ⟨0x30, by simp [zeros], h0, by omega⟩

/-- The value of an ASCII digit. -/
def value (c : Char) : Nat := c.toNat - 48

/-- The number that a row of ASCII digits writes, continuing from `n`. -/
def valueFrom (n : Nat) (ds : List Char) : Nat := ds.foldl (fun n d => 10 * n + value d) n

/-- Reads a row of ASCII digits, at least one. -/
def readNat? (ds : List Char) : Option Nat :=
  if ds ≠ [] ∧ ds.all isAscii then some (valueFrom 0 ds) else none

end Digit

end TemplateStyles.Text
