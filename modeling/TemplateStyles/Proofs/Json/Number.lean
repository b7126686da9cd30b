import TemplateStyles.Json.Number
import TemplateStyles.Proofs.Number.Printing
/-!
# Numbers in documents

The text of every number is a literal of the format (`NumberLiteral.WellFormed`), and the decimal
that the literal writes is the whole number, or rounds to the double, that the text was made from
(`NumberLiteral.Writes`). A literal ends where no digit, point or exponent follows, so that the
text of a number says which one it is, and where it ends. Main result `text_append_inj`.
-/
namespace TemplateStyles

open Text.Digit StyleValue

/-! ## Literals -/

/-- No number goes on here. -/
def EndsNumber (rest : List Char) : Prop :=
  ∀ c ∈ rest.head?, isAscii c = false ∧ c ≠ '.' ∧ c ≠ 'e' ∧ c ≠ 'E'

/-- An exponent behind its `e`, with a sign in any case. -/
def exponentChars : Option Int → List Char
  | none => []
  | some e => 'e' :: (if e < 0 then '-' else '+') :: digitsOf e.natAbs

namespace NumberLiteral

def chars (l : NumberLiteral) : List Char :=
  signChars l.negative ++ (l.whole ++ (fractionChars l.fraction ++ exponentChars l.exponent))

structure WellFormed (l : NumberLiteral) : Prop where
  whole : IsNumeral l.whole
  lead : l.whole = ['0'] ∨ l.whole.head? ≠ some '0'
  fraction : ∀ ds ∈ l.fraction, IsNumeral ds

/-- What the literal writes, as a fraction. -/
def numerator (l : NumberLiteral) : Nat :=
  valueFrom 0 (l.whole ++ l.fraction.getD []) * 10 ^ (l.exponent.getD 0).toNat

def denominator (l : NumberLiteral) : Nat :=
  10 ^ ((l.fraction.getD []).length + (-l.exponent.getD 0).toNat)

/-- The number is what the literal writes: a whole number has neither point nor exponent, and a
double is the nearest one. -/
def Writes (l : NumberLiteral) : JsonNumber → Prop
  | .int n => l.fraction = none ∧ l.exponent = none ∧
      n = if l.negative then -(l.numerator : Int) else l.numerator
  | .double negative m => (l.fraction.isSome = true ∨ l.exponent.isSome = true) ∧
      l.negative = negative ∧ Magnitude.nearest? l.numerator l.denominator = some m

/-- A literal writes one number. -/
theorem Writes.unique {l : NumberLiteral} {x y : JsonNumber} (hx : l.Writes x) (hy : l.Writes y) :
    x = y := by
  cases x with
  | int n =>
    cases y with
    | int k => rw [hx.2.2, hy.2.2]
    | double negative m => simp [Writes, hx.1, hx.2.1] at hy
  | double negative m =>
    cases y with
    | int k => simp [Writes, hy.1, hy.2.1] at hx
    | double sign m' =>
      have hm : m = m' := Option.some.inj (hx.2.2.symm.trans hy.2.2)
      rw [← hx.2.1, ← hy.2.1, hm]

end NumberLiteral

/-! ## Scanning a literal -/

variable {rest : List Char}

theorem startsNoDigit_exponentChars (e : Option Int) (h : EndsNumber rest) :
    StartsNoDigit (exponentChars e ++ rest) ∧ (exponentChars e ++ rest).head? ≠ some '.' := by
  cases e with
  | none =>
    exact ⟨fun c hc => (h c hc).1, fun hpoint => (h '.' hpoint).2.1 rfl⟩
  | some e => simp [exponentChars, StartsNoDigit, isAscii]

theorem scanExponentDigits?_eq (n : Nat) (h : EndsNumber rest) (negative : Bool) :
    scanExponentDigits? negative (digitsOf n ++ rest) =
      some (some (if negative then -(n : Int) else n), rest) := by
  have hrepr : digitsOf n = (Nat.repr n).toList := (Nat.toList_repr ..).symm
  have hdigits := isNumeral_repr n
  rw [scanExponentDigits?, hrepr, takeDigits_append hdigits.isAscii fun c hc => (h c hc).1]
  split
  · rename_i hnil
    exact absurd (Prod.mk.inj hnil).1 hdigits.ne_nil
  · rename_i heq
    obtain ⟨rfl, rfl⟩ := Prod.mk.inj heq
    rw [valueFrom_repr]

theorem scanExponent?_eq (e : Option Int) (h : EndsNumber rest) :
    scanExponent? (exponentChars e ++ rest) = some (e, rest) := by
  cases e with
  | none =>
    rw [exponentChars, List.nil_append]
    unfold scanExponent?
    split
    all_goals first
      | rfl
      | exact absurd rfl (h _ rfl).2.2.1
      | exact absurd rfl (h _ rfl).2.2.2
  | some e =>
    by_cases hneg : e < 0
    · have hvalue : -(e.natAbs : Int) = e := by omega
      rw [exponentChars, if_pos hneg, List.cons_append, List.cons_append, scanExponent?,
        scanExponentDigits?_eq _ h, if_pos rfl, hvalue]
    · have hvalue : (e.natAbs : Int) = e := by omega
      rw [exponentChars, if_neg hneg, List.cons_append, List.cons_append, scanExponent?,
        scanExponentDigits?_eq _ h, if_neg (by simp), hvalue]

theorem scanWhole?_eq {whole : List Char} (h : IsNumeral whole)
    (hlead : whole = ['0'] ∨ whole.head? ≠ some '0') (hrest : StartsNoDigit rest) :
    scanWhole? (whole ++ rest) = some (whole, rest) := by
  rcases hlead with rfl | hlead
  · rfl
  · have htake := takeDigits_append h.isAscii hrest
    obtain ⟨d, ds, rfl⟩ := List.exists_cons_of_ne_nil h.ne_nil
    rw [List.cons_append] at htake ⊢
    unfold scanWhole?
    split
    · rename_i heq
      rw [(List.cons.inj heq).1] at hlead
      exact absurd rfl hlead
    · rw [htake]

namespace NumberLiteral

variable {l : NumberLiteral}

theorem WellFormed.scanUnsigned? (h : l.WellFormed) (hrest : EndsNumber rest) :
    scanUnsigned? l.negative
      (l.whole ++ (fractionChars l.fraction ++ exponentChars l.exponent) ++ rest) =
      some (l, rest) := by
  obtain ⟨hdigit, hpoint⟩ := startsNoDigit_exponentChars l.exponent hrest
  have hfraction :
      StartsNoDigit (fractionChars l.fraction ++ (exponentChars l.exponent ++ rest)) := by
    cases l.fraction with
    | none => exact hdigit
    | some ds =>
      intro c hc
      rw [← Option.some.inj hc]
      decide
  rw [List.append_assoc, List.append_assoc, TemplateStyles.scanUnsigned?,
    scanWhole?_eq h.whole h.lead hfraction]
  simp [scanFraction?_eq h.fraction hdigit hpoint, scanExponent?_eq _ hrest]

/-- **A literal is scanned up to its end.** -/
theorem WellFormed.scanNumber? (h : l.WellFormed) (hrest : EndsNumber rest) :
    scanNumber? (l.chars ++ rest) = some (l, rest) := by
  have hscan := h.scanUnsigned? hrest
  rw [chars, List.append_assoc]
  cases hsign : l.negative with
  | true =>
    rw [hsign] at hscan
    exact hscan
  | false =>
    rw [hsign] at hscan
    rw [signChars, if_neg (by simp), List.nil_append]
    unfold TemplateStyles.scanNumber?
    split
    · rename_i hminus
      obtain ⟨d, ds, hwhole⟩ := List.exists_cons_of_ne_nil h.whole.ne_nil
      have hd := h.whole.isAscii d (by rw [hwhole]; exact List.mem_cons_self ..)
      rw [hwhole] at hminus
      rw [(List.cons.inj hminus).1] at hd
      exact absurd hd (by decide)
    · exact hscan

end NumberLiteral

/-! ## The literals of numbers -/

namespace Magnitude

variable {m : Magnitude} {ds : List Char} {exponent : Int}

/-- A literal with a point or an exponent writes the double whose interval holds its value. -/
theorem writes_of_owns {l : NumberLiteral} (hpoint : l.fraction.isSome ∨ l.exponent.isSome)
    (h : m.Owns (l.numerator * quarter) l.denominator) : l.Writes (.double l.negative m) :=
  ⟨hpoint, rfl, nearest?_of_owns h⟩

theorem exists_literal_of_positional (hds : m.Significant ds exponent) (negative : Bool) :
    ∃ l : NumberLiteral, l.WellFormed ∧ l.negative = negative ∧ l.Writes (.double negative m) ∧
      positional true ds exponent =
        l.whole ++ (fractionChars l.fraction ++ exponentChars l.exponent) := by
  obtain ⟨whole, fraction, t, htext, hparts, hvalue, hplaces, hhead, hpoint⟩ :=
    exists_positional hds.numeral true exponent
  have hlead : whole = ['0'] ∨ whole.head? ≠ some '0' :=
    hhead.imp_right fun h => by rw [h]; exact hds.lead
  refine ⟨⟨negative, whole, fraction, none⟩, ⟨hparts.whole, hlead, hparts.fraction⟩, rfl,
    writes_of_owns (.inl (hpoint rfl)) ?_, ?_⟩
  · have hown := hds.owns t (fraction.getD []).length hplaces
    rw [← hvalue] at hown
    simpa [NumberLiteral.numerator, NumberLiteral.denominator] using hown
  · rw [exponentChars, List.append_nil]
    exact htext

theorem exists_literal_of_scientific (hds : m.Significant ds exponent) (negative : Bool) :
    ∃ l : NumberLiteral, l.WellFormed ∧ l.negative = negative ∧ l.Writes (.double negative m) ∧
      scientific ['+'] ds exponent =
        l.whole ++ (fractionChars l.fraction ++ exponentChars l.exponent) := by
  obtain ⟨d, rest, rfl⟩ := List.exists_cons_of_ne_nil hds.numeral.ne_nil
  have hascii := hds.numeral.isAscii
  have hd : IsNumeral [d] :=
    ⟨by simp, fun c hc => hascii c (List.mem_singleton.1 hc ▸ List.mem_cons_self ..)⟩
  have hwhole : [d] = ['0'] ∨ [d].head? ≠ some '0' := .inr hds.lead
  have hown := hds.owns exponent.toNat (rest.length + (-exponent).toNat)
    (by rw [List.length_cons]; omega)
  cases rest with
  | nil =>
    refine ⟨⟨negative, [d], none, some exponent⟩, ⟨hd, hwhole, by simp⟩, rfl,
      writes_of_owns (.inr rfl) hown, ?_⟩
    simp only [scientific, fractionChars, exponentChars]
    split <;> rfl
  | cons e rest =>
    have he : IsNumeral (e :: rest) :=
      ⟨by simp, fun c hc => hascii c (List.mem_cons_of_mem _ hc)⟩
    refine ⟨⟨negative, [d], some (e :: rest), some exponent⟩, ⟨hd, hwhole, ?_⟩, rfl,
      writes_of_owns (.inr rfl) hown, ?_⟩
    · intro f hf
      rwa [← Option.some.inj hf]
    · simp only [scientific, fractionChars, exponentChars]
      split <;> simp

/-- The text of a magnitude in a document is a literal that writes it. -/
theorem exists_literal (m : Magnitude) (negative : Bool) :
    ∃ l : NumberLiteral, l.WellFormed ∧ l.negative = negative ∧ l.Writes (.double negative m) ∧
      m.layout .json = l.whole ++ (fractionChars l.fraction ++ exponentChars l.exponent) := by
  unfold layout
  extract_lets d all exponent
  split
  · rename_i hzero
    have hnumeral : IsNumeral ['0'] := ⟨by simp, by simp [isAscii]⟩
    refine ⟨⟨negative, ['0'], some ['0'], none⟩, ⟨hnumeral, .inl rfl, ?_⟩, rfl,
      writes_of_owns (.inl rfl) (owns_zero hzero), rfl⟩
    intro ds hds
    rwa [← Option.some.inj hds]
  · rename_i hdigits
    have hds : m.Significant (dropTrailingZeros all) exponent := m.significant_shortest _ hdigits
    split
    · exact exists_literal_of_positional hds negative
    · exact exists_literal_of_scientific hds negative

end Magnitude

namespace JsonNumber

theorem exists_literal_int {n : Int} (negative : Bool) (k : Nat)
    (hn : n = if negative then -(k : Int) else k)
    (htext : (toString n).toList = signChars negative ++ (Nat.repr k).toList) :
    ∃ l : NumberLiteral, l.WellFormed ∧ l.Writes (.int n) ∧ (int n).text.toList = l.chars := by
  have hlead : (Nat.repr k).toList = ['0'] ∨ (Nat.repr k).toList.head? ≠ some '0' := by
    by_cases hk : k = 0
    · exact .inl (by rw [hk]; rfl)
    · right
      rw [Nat.toList_repr]
      exact head?_digitsOf_ne hk
  refine ⟨⟨negative, (Nat.repr k).toList, none, none⟩, ⟨isNumeral_repr k, hlead, by simp⟩,
    ⟨rfl, rfl, ?_⟩, ?_⟩
  · rw [hn, NumberLiteral.numerator, Option.getD_none, List.append_nil, valueFrom_repr]
    simp
  · rw [text, htext, NumberLiteral.chars, fractionChars, exponentChars, List.append_nil,
      List.append_nil]

/-- **The text of a number is a literal that writes this number.** -/
theorem exists_literal (n : JsonNumber) :
    ∃ l : NumberLiteral, l.WellFormed ∧ l.Writes n ∧ n.text.toList = l.chars := by
  cases n with
  | int n =>
    cases n with
    | ofNat k => exact exists_literal_int false k rfl rfl
    | negSucc k =>
      refine exists_literal_int true (k + 1) rfl ?_
      have htext : toString (Int.negSucc k) = "-" ++ Nat.repr (k + 1) := rfl
      rw [htext, String.toList_append]
      rfl
  | double negative m =>
    obtain ⟨l, hl, rfl, hwrites, htext⟩ := m.exists_literal negative
    refine ⟨l, hl, hwrites, ?_⟩
    rw [text, Binary64.layout, String.toList_ofList, htext, NumberLiteral.chars, signChars]

/-- **The text of a number says which one it is**, and where it ends. -/
theorem text_append_inj {n k : JsonNumber} {r s : List Char} (hr : EndsNumber r)
    (hs : EndsNumber s) (h : n.text.toList ++ r = k.text.toList ++ s) : n = k ∧ r = s := by
  obtain ⟨l, hl, hn, hltext⟩ := n.exists_literal
  obtain ⟨l', hl', hk, hltext'⟩ := k.exists_literal
  rw [hltext, hltext'] at h
  have hscan := hl.scanNumber? hr
  rw [h, hl'.scanNumber? hs] at hscan
  obtain ⟨rfl, rfl⟩ := Prod.mk.inj (Option.some.inj hscan)
  exact ⟨hn.unique hk, rfl⟩

/-- A number starts with a minus sign or a digit. -/
theorem exists_text_cons (n : JsonNumber) :
    ∃ c r, n.text.toList = c :: r ∧ (c = '-' ∨ isAscii c = true) := by
  obtain ⟨l, hl, -, htext⟩ := n.exists_literal
  obtain ⟨d, ds, hwhole⟩ := List.exists_cons_of_ne_nil hl.whole.ne_nil
  have hd : isAscii d = true := hl.whole.isAscii d (by rw [hwhole]; exact List.mem_cons_self ..)
  rw [htext, NumberLiteral.chars, hwhole]
  cases l.negative with
  | true => exact ⟨'-', _, rfl, .inl rfl⟩
  | false => exact ⟨d, _, rfl, .inr hd⟩

end JsonNumber

end TemplateStyles
