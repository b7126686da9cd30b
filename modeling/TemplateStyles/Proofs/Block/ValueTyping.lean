import TemplateStyles.Proofs.Block.ValuePrinting
import TemplateStyles.Proofs.Number.Nearest
/-!
# How a written value is typed

A value is a number just if a number is written between its blanks, and the double nearest to this
number (`readNumber?_iff_writes`). Every other value is a text. With markers it loses at most a unit
behind the marker at its end (`withoutUnit_dropUnit`), without them at most two equal quotes
(`withoutQuotes_getD`). Main result `ofText_exact`, which says all of it for any text, and that no
marker is lost.
-/
namespace TemplateStyles.StyleValue

open Text.Digit

/-! ## Numbers -/

/-- The text is the number `q` with its sign: perhaps a minus sign, digits, perhaps a point and
digits, and perhaps a unit. -/
def Writes (t : List Char) (negative : Bool) (q : ℚ) : Prop :=
  ∃ whole fraction unit, IsUnsigned whole fraction unit ∧
    t = signChars negative ++ (whole ++ (fractionChars fraction ++ unit)) ∧
    q = valueFrom 0 (whole ++ fraction.getD []) / 10 ^ (fraction.getD []).length

theorem readNumber?_iff_writes {t : List Char} {x : Binary64} :
    readNumber? t = some x ↔ ∃ negative q, Writes t negative q ∧ x.IsNearest negative q := by
  rw [readNumber?_eq_some_iff]
  constructor
  · rintro ⟨negative, whole, fraction, unit, hparts, ht, hx⟩
    exact ⟨negative, _, ⟨whole, fraction, unit, hparts, ht, rfl⟩, Binary64.ofDecimal_eq_iff.1 hx.symm⟩
  · rintro ⟨negative, _, ⟨whole, fraction, unit, hparts, ht, rfl⟩, hx⟩
    exact ⟨negative, whole, fraction, unit, hparts, ht, (Binary64.ofDecimal_eq_iff.2 hx).symm⟩

/-- What is written as a number is read as one. -/
theorem readNumber?_eq_none_iff {t : List Char} :
    readNumber? t = none ↔ ∀ negative q, ¬ Writes t negative q := by
  constructor
  · rintro h negative _ ⟨whole, fraction, unit, hparts, ht, -⟩
    have hread := readNumber?_eq_some_iff.2 ⟨negative, whole, fraction, unit, hparts, ht, rfl⟩
    rw [h] at hread
    simp at hread
  · intro h
    refine Option.eq_none_iff_forall_ne_some.2 fun x hx => ?_
    obtain ⟨negative, q, hwrites, -⟩ := readNumber?_iff_writes.1 hx
    exact h negative q hwrites

/-- A text with a marker is no number. -/
theorem readNumber?_of_marker {t : List Char} (h : (Marker.first? t).isSome = true) :
    readNumber? t = none := by
  refine Option.eq_none_iff_forall_ne_some.2 fun x hx => ?_
  have hmem : '_' ∉ t := fun hmem => absurd (isNumberChar_of_readNumber? hx _ hmem) (by decide)
  rw [Marker.first?_of_not_mem hmem] at h
  simp at h

/-! ## Texts -/

/-- `s` is `t` without the unit that stands right behind a marker at its end, if there is one. -/
def WithoutUnit (t s : List Char) : Prop :=
  (∃ front ds unit, Marker.IsDigits ds ∧ Marker.isUnit unit = true ∧
      s = front ++ Marker.ofDigits ds ∧ t = s ++ unit) ∨
    s = t ∧ ∀ front ds unit, Marker.IsDigits ds → Marker.isUnit unit = true →
      t ≠ front ++ Marker.ofDigits ds ++ unit

/-- `s` is `t` without the two equal quotes at its ends, if it has them. -/
def WithoutQuotes (t s : List Char) : Prop :=
  (∃ q, IsQuote q ∧ t = Text.enclosed q s ∧ t.getLast? ≠ some '%') ∨
    s = t ∧ ∀ q inner, IsQuote q → t ≠ Text.enclosed q inner

theorem withoutUnit_dropUnit (t : List Char) : WithoutUnit t (Marker.dropUnit t) := by
  rcases Marker.dropUnit_cases t with ⟨front, ds, unit, hds, hunit, ht, hdrop⟩ | ⟨hdrop, hnone⟩
  · refine .inl ⟨front, ds, unit, hds, hunit, hdrop, ?_⟩
    rw [hdrop, List.append_assoc, ← ht]
  · refine .inr ⟨hdrop, fun front ds unit hds hunit ht => ?_⟩
    exact hnone front ds unit hds hunit (by rw [ht, List.append_assoc])

theorem withoutQuotes_getD (t : List Char) : WithoutQuotes t ((unquote? t).getD t) := by
  cases hquote : unquote? t with
  | some inner =>
    obtain ⟨q, hq, ht⟩ := exists_of_unquote? hquote
    refine .inl ⟨q, hq, ht, ?_⟩
    have hlast : t.getLast? = some q := by
      rw [ht, Text.enclosed, ← List.cons_append, List.getLast?_concat]
    rw [hlast]
    rcases hq with rfl | rfl <;> decide
  | none =>
    refine .inr ⟨rfl, fun q inner hq ht => ?_⟩
    rw [ht, unquote?_enclosed hq] at hquote
    simp at hquote

/-! ## Written values -/

theorem ofText_of_marker {v : String} (h : Marker.occursIn v = true) :
    ofText v = .text (String.ofList (Marker.dropUnit (Text.trimChars v.toList))) := by
  refine if_pos ?_
  rwa [Marker.first?_trimChars]

theorem ofText_eq_number_iff {v : String} {x : Binary64} :
    ofText v = .number x ↔ readNumber? (Text.trimChars v.toList) = some x := by
  by_cases hmarker : (Marker.first? (Text.trimChars v.toList)).isSome = true
  · rw [ofText, ofTrimmed, if_pos hmarker, readNumber?_of_marker hmarker]
    simp
  · rw [ofText, ofTrimmed, if_neg hmarker]
    cases readNumber? (Text.trimChars v.toList) <;> simp

/-- **The typing of written values.** A value is a number just if it is written as one, and the
double nearest to it. Any other is a text with the same markers in the same order. -/
theorem ofText_exact (v : String) :
    ((∃ x, ofText v = .number x) ↔ ∃ negative q, Writes (Text.trimChars v.toList) negative q) ∧
      match ofText v with
      | .number x => ∃ negative q,
          Writes (Text.trimChars v.toList) negative q ∧ x.IsNearest negative q
      | .text s => Marker.occurrences s.toList = Marker.occurrences v.toList ∧
          if Marker.occursIn v then WithoutUnit (Text.trimChars v.toList) s.toList
          else WithoutQuotes (Text.trimChars v.toList) s.toList := by
  refine ⟨⟨?_, ?_⟩, ?_⟩
  · rintro ⟨x, hx⟩
    obtain ⟨negative, q, hwrites, -⟩ := readNumber?_iff_writes.1 (ofText_eq_number_iff.1 hx)
    exact ⟨negative, q, hwrites⟩
  · rintro ⟨negative, q, hwrites⟩
    cases hread : readNumber? (Text.trimChars v.toList) with
    | some x => exact ⟨x, ofText_eq_number_iff.2 hread⟩
    | none => exact absurd hwrites (readNumber?_eq_none_iff.1 hread negative q)
  · split
    · rename_i x hx
      exact readNumber?_iff_writes.1 (ofText_eq_number_iff.1 hx)
    · rename_i s hs
      by_cases hmarker : Marker.occursIn v = true
      · rw [ofText_of_marker hmarker, text.injEq] at hs
        rw [if_pos hmarker, ← hs, String.toList_ofList]
        exact ⟨by rw [Marker.occurrences_dropUnit, Marker.occurrences_trimChars],
          withoutUnit_dropUnit _⟩
      · rw [if_neg hmarker]
        rw [Bool.not_eq_true] at hmarker
        have hquotes := withoutQuotes_getD (Text.trimChars v.toList)
        rw [← toList_of_ofText hmarker hs] at hquotes
        refine ⟨?_, hquotes⟩
        rw [← Marker.occurrences_trimChars v.toList]
        rcases hquotes with ⟨q, hq, ht, -⟩ | ⟨hself, -⟩
        · rw [ht, occurrences_enclosed hq]
        · rw [hself]

end TemplateStyles.StyleValue
