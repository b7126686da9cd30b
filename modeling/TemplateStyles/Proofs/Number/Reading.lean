import TemplateStyles.Value
/-!
# What is read as a number

A number is written as a minus sign or nothing, digits, perhaps a point and digits, and perhaps a
unit. Just the texts of this form are read as numbers, each as the double nearest to the decimal
(`readNumber?_eq_some_iff`).
-/
namespace TemplateStyles

/-- A row of ASCII digits, at least one. -/
structure Text.Digit.IsNumeral (ds : List Char) : Prop where
  ne_nil : ds ≠ []
  isAscii : ∀ c ∈ ds, Text.Digit.isAscii c = true

open Text.Digit

/-! ## Taking digits off the front -/

/-- No digit comes first. -/
def StartsNoDigit (s : List Char) : Prop := ∀ c ∈ s.head?, Text.Digit.isAscii c = false

theorem takeDigits_append {ds rest : List Char} (h : ∀ c ∈ ds, isAscii c = true)
    (hrest : StartsNoDigit rest) : takeDigits (ds ++ rest) = (ds, rest) := by
  have hstop : rest.takeWhile isAscii = [] ∧ rest.dropWhile isAscii = rest := by
    cases rest with
    | nil => simp
    | cons c rest => simp [hrest c rfl]
  rw [takeDigits, List.takeWhile_append_of_pos h, List.dropWhile_append_of_pos h, hstop.1, hstop.2,
    List.append_nil]

theorem takeDigits_eq {s ds rest : List Char} (h : takeDigits s = (ds, rest)) :
    s = ds ++ rest ∧ ∀ c ∈ ds, isAscii c = true := by
  obtain ⟨rfl, rfl⟩ := Prod.mk.inj h
  exact ⟨List.takeWhile_append_dropWhile.symm,
    fun c hc => List.all_eq_true.1 (List.all_takeWhile ..) c hc⟩

namespace StyleValue

/-- The digits behind the point, with the point. -/
def fractionChars : Option (List Char) → List Char
  | none => []
  | some ds => '.' :: ds

/-- The parts of a number without sign. -/
structure IsUnsigned (whole : List Char) (fraction : Option (List Char)) (unit : List Char) :
    Prop where
  whole : IsNumeral whole
  fraction : ∀ ds ∈ fraction, IsNumeral ds
  unit : unit = [] ∨ unit ∈ numericUnits

theorem startsNoDigit_of_unit {unit : List Char} (h : unit = [] ∨ unit ∈ numericUnits) :
    StartsNoDigit unit ∧ unit.head? ≠ some '.' := by
  have hunits : ∀ u ∈ numericUnits,
      u.head?.all (fun c => !Text.Digit.isAscii c) = true ∧ u.head? ≠ some '.' := by decide
  rcases h with rfl | h
  · simp [StartsNoDigit]
  · obtain ⟨hdigit, hpoint⟩ := hunits unit h
    exact ⟨by simpa [StartsNoDigit, Option.all_eq_true] using hdigit, hpoint⟩

theorem scanFraction?_eq {fraction : Option (List Char)} {rest : List Char}
    (hfraction : ∀ ds ∈ fraction, IsNumeral ds) (hrest : StartsNoDigit rest)
    (hpoint : rest.head? ≠ some '.') :
    scanFraction? (fractionChars fraction ++ rest) = some (fraction, rest) := by
  cases fraction with
  | none =>
    rw [fractionChars, List.nil_append]
    unfold scanFraction?
    split
    · simp at hpoint
    · rfl
  | some ds =>
    have hds := hfraction ds rfl
    rw [fractionChars, List.cons_append, scanFraction?, takeDigits_append hds.isAscii hrest]
    cases ds with
    | nil => exact absurd rfl hds.ne_nil
    | cons d ds => rfl

theorem eq_of_scanFraction? {s rest : List Char} {fraction : Option (List Char)}
    (h : scanFraction? s = some (fraction, rest)) :
    s = fractionChars fraction ++ rest ∧ ∀ ds ∈ fraction, IsNumeral ds := by
  unfold scanFraction? at h
  split at h
  · split at h
    · simp at h
    · rename_i hne htake
      obtain ⟨rfl, rfl⟩ := Prod.mk.inj (Option.some.inj h)
      obtain ⟨rfl, hall⟩ := takeDigits_eq htake
      refine ⟨rfl, fun ds hds => ?_⟩
      rw [← Option.some.inj hds]
      exact ⟨fun hnil => by simp [hnil] at hne, hall⟩
  · obtain ⟨rfl, rfl⟩ := Prod.mk.inj (Option.some.inj h)
    simp [fractionChars]

/-- **What is read as a number without sign**, and as which one. -/
theorem readUnsigned?_eq_some_iff {negative : Bool} {s : List Char} {x : Binary64} :
    readUnsigned? negative s = some x ↔ ∃ whole fraction unit,
      IsUnsigned whole fraction unit ∧ s = whole ++ (fractionChars fraction ++ unit) ∧
        x = .ofDecimal negative (valueFrom 0 (whole ++ fraction.getD []))
          (fraction.getD []).length := by
  constructor
  · intro h
    unfold readUnsigned? at h
    split at h
    · simp at h
    · rename_i whole rest hne htake
      obtain ⟨rfl, hwhole⟩ := takeDigits_eq htake
      split at h
      · simp at h
      · rename_i fraction unit hscan
        obtain ⟨rfl, hfraction⟩ := eq_of_scanFraction? hscan
        split at h
        · rename_i hunit
          refine ⟨whole, fraction, unit, ⟨⟨?_, hwhole⟩, hfraction, ?_⟩, rfl,
            (Option.some.inj h).symm⟩
          · exact hne
          · simpa [List.isEmpty_iff, List.any_eq_true] using hunit
        · simp at h
  · rintro ⟨whole, fraction, unit, ⟨hwhole, hfraction, hunit⟩, rfl, rfl⟩
    obtain ⟨hdigit, hpoint⟩ := startsNoDigit_of_unit hunit
    have hrest : StartsNoDigit (fractionChars fraction ++ unit) := by
      cases fraction with
      | none => exact hdigit
      | some ds =>
        intro c hc
        rw [← Option.some.inj hc]
        decide
    have hallowed : (unit.isEmpty || numericUnits.any (· == unit)) = true := by
      simpa [List.isEmpty_iff, List.any_eq_true] using hunit
    rw [readUnsigned?, takeDigits_append hwhole.isAscii hrest]
    cases whole with
    | nil => exact absurd rfl hwhole.ne_nil
    | cons d whole =>
      simp only [scanFraction?_eq hfraction hdigit hpoint, hallowed, if_true]

/-- The sign of a number. -/
def signChars (negative : Bool) : List Char := if negative then ['-'] else []

/-- **What is read as a number**, and as which one. -/
theorem readNumber?_eq_some_iff {s : List Char} {x : Binary64} :
    readNumber? s = some x ↔ ∃ negative whole fraction unit,
      IsUnsigned whole fraction unit ∧
        s = signChars negative ++ (whole ++ (fractionChars fraction ++ unit)) ∧
        x = .ofDecimal negative (valueFrom 0 (whole ++ fraction.getD []))
          (fraction.getD []).length := by
  constructor
  · intro h
    unfold readNumber? at h
    split at h
    · obtain ⟨whole, fraction, unit, hparts, rfl, rfl⟩ := readUnsigned?_eq_some_iff.1 h
      exact ⟨true, whole, fraction, unit, hparts, rfl, rfl⟩
    · obtain ⟨whole, fraction, unit, hparts, rfl, rfl⟩ := readUnsigned?_eq_some_iff.1 h
      exact ⟨false, whole, fraction, unit, hparts, rfl, rfl⟩
  · rintro ⟨negative, whole, fraction, unit, hparts, rfl, rfl⟩
    have hread : ∀ sign, readUnsigned? sign (whole ++ (fractionChars fraction ++ unit)) =
        some (.ofDecimal sign (valueFrom 0 (whole ++ fraction.getD []))
          (fraction.getD []).length) := fun sign =>
      readUnsigned?_eq_some_iff.2 ⟨whole, fraction, unit, hparts, rfl, rfl⟩
    cases negative with
    | true => exact hread true
    | false =>
      rw [signChars, if_neg (by simp), List.nil_append]
      unfold readNumber?
      split
      · rename_i hminus
        obtain ⟨d, ds, rfl⟩ := List.exists_cons_of_ne_nil hparts.whole.ne_nil
        have hd := hparts.whole.isAscii d (List.mem_cons_self ..)
        rw [(List.cons.inj hminus).1] at hd
        exact absurd hd (by decide)
      · exact hread false

/-- The characters that a number can be written with. -/
def isNumberChar (c : Char) : Bool := isAscii c || c ∈ "-.pxemr".toList

theorem isNumberChar_of_readNumber? {s : List Char} {x : Binary64} (h : readNumber? s = some x) :
    ∀ c ∈ s, isNumberChar c = true := by
  obtain ⟨negative, whole, fraction, unit, ⟨hwhole, hfraction, hunit⟩, rfl, -⟩ :=
    readNumber?_eq_some_iff.1 h
  have hdigit : ∀ {ds : List Char}, IsNumeral ds → ∀ c ∈ ds, isNumberChar c = true :=
    fun hds c hc => by rw [isNumberChar, hds.isAscii c hc, Bool.true_or]
  have hunits : ∀ u ∈ numericUnits, u.all isNumberChar = true := by decide
  intro c hc
  simp only [List.mem_append] at hc
  rcases hc with hc | hc | hc | hc
  · cases negative with
    | true => rw [List.mem_singleton.1 hc]; decide
    | false => simp [signChars] at hc
  · exact hdigit hwhole c hc
  · cases fraction with
    | none => simp [fractionChars] at hc
    | some ds =>
      rcases List.mem_cons.1 hc with rfl | hc
      · decide
      · exact hdigit (hfraction ds rfl) c hc
  · rcases hunit with rfl | hunit
    · simp at hc
    · exact List.all_eq_true.1 (hunits unit hunit) c hc

end StyleValue

end TemplateStyles
