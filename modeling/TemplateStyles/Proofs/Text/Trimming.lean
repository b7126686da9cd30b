import Mathlib.Data.List.DropRight
import TemplateStyles.Text.Character
/-!
# Trimming and splitting

Trimming takes a blank front and a blank end away (`exists_eq_trimChars`), nothing from a text that
is trimmed (`trimChars_trimChars`), and works on both sides of a character that is not blank by
itself (`trimChars_append_cons`). The parts of a list that is split are parts of it
(`infix_of_mem_splitOnP`) and have everything but the separators (`flatten_splitOnP`).
-/
namespace TemplateStyles.Text

/-- No visible ASCII character is blank. -/
theorem isBlank_eq_false_of_ascii {c : Char} (hlow : 0x21 ≤ c.toNat) (hhigh : c.toNat < 0x80) :
    isBlank c = false := by
  have hranges : ∀ r ∈ blankRanges, r.2 < 0x21 ∨ 0x80 ≤ r.1 := by decide
  rw [isBlank, List.any_eq_false]
  intro r hr hin
  simp only [Bool.and_eq_true, decide_eq_true_eq] at hin
  have := hranges r hr
  omega

/-! ## Trimming -/

theorem trimStart_append_cons {c : Char} (hc : isBlank c = false) (x y : List Char) :
    trimStart (x ++ c :: y) = trimStart x ++ c :: y := by
  induction x with
  | nil => simp [trimStart, hc]
  | cons a x ih =>
    by_cases ha : isBlank a = true
    · simpa [trimStart, ha] using ih
    · simp [trimStart, ha]

theorem trimEnd_append_cons {c : Char} (hc : isBlank c = false) (x y : List Char) :
    trimEnd (x ++ c :: y) = x ++ c :: trimEnd y := by
  have h := trimStart_append_cons hc y.reverse x.reverse
  rw [trimStart, trimStart] at h
  rw [trimEnd, trimEnd, List.reverse_append, List.reverse_cons, List.append_assoc,
    List.singleton_append, h]
  simp

/-- A text that holds a character that is not blank is trimmed on both sides of it. -/
theorem trimChars_append_cons {c : Char} (hc : isBlank c = false) (x y : List Char) :
    trimChars (x ++ c :: y) = trimStart x ++ c :: trimEnd y := by
  rw [trimChars, trimStart_append_cons hc, trimEnd_append_cons hc]

theorem exists_eq_trimStart (s : List Char) :
    ∃ front, (∀ c ∈ front, isBlank c = true) ∧ s = front ++ trimStart s := by
  refine ⟨s.takeWhile isBlank, fun c hc => ?_, List.takeWhile_append_dropWhile.symm⟩
  exact List.all_eq_true.1 (List.all_takeWhile ..) c hc

theorem exists_eq_trimEnd (s : List Char) :
    ∃ back, (∀ c ∈ back, isBlank c = true) ∧ s = trimEnd s ++ back := by
  obtain ⟨front, hf, e⟩ := exists_eq_trimStart s.reverse
  refine ⟨front.reverse, fun c hc => hf c (List.mem_reverse.1 hc), ?_⟩
  have := congrArg List.reverse e
  simpa [trimEnd, trimStart] using this

/-- What trimming takes away. -/
theorem exists_eq_trimChars (s : List Char) : ∃ front back,
    (∀ c ∈ front, isBlank c = true) ∧ (∀ c ∈ back, isBlank c = true) ∧
      s = front ++ trimChars s ++ back := by
  obtain ⟨front, hf, e⟩ := exists_eq_trimStart s
  obtain ⟨back, hb, e'⟩ := exists_eq_trimEnd (trimStart s)
  exact ⟨front, back, hf, hb, by rw [List.append_assoc, trimChars, ← e', ← e]⟩

theorem trimChars_isInfix (s : List Char) : trimChars s <:+: s := by
  obtain ⟨front, back, -, -, e⟩ := exists_eq_trimChars s
  exact ⟨front, back, e.symm⟩

theorem trimStart_trimStart (s : List Char) : trimStart (trimStart s) = trimStart s :=
  List.dropWhile_idempotent _ _

theorem trimEnd_trimEnd (s : List Char) : trimEnd (trimEnd s) = trimEnd s :=
  List.rdropWhile_idempotent _ _

theorem trimEnd_eq_nil_iff {s : List Char} : trimEnd s = [] ↔ ∀ c ∈ s, isBlank c = true :=
  List.rdropWhile_eq_nil_iff

theorem trimChars_eq_nil_iff {s : List Char} : trimChars s = [] ↔ ∀ c ∈ s, isBlank c = true := by
  obtain ⟨front, hf, e⟩ := exists_eq_trimStart s
  rw [trimChars, trimEnd_eq_nil_iff]
  constructor
  · intro h c hc
    rw [e] at hc
    exact (List.mem_append.1 hc).elim (hf c) (h c)
  · intro h c hc
    exact h c (e ▸ List.mem_append_right _ hc)

/-- The blanks at one end do not matter for what is trimmed at both. -/
theorem trimChars_trimStart (s : List Char) : trimChars (trimStart s) = trimChars s := by
  rw [trimChars, trimStart_trimStart, trimChars]

theorem trimChars_trimEnd (s : List Char) : trimChars (trimEnd s) = trimChars s := by
  by_cases hs : ∀ c ∈ s, isBlank c = true
  · rw [trimEnd_eq_nil_iff.2 hs, trimChars_eq_nil_iff.2 hs]; rfl
  · simp only [Classical.not_forall] at hs
    obtain ⟨c, hc, hb⟩ := hs
    obtain ⟨x, y, rfl⟩ := List.append_of_mem hc
    have hb' : isBlank c = false := by simpa using hb
    rw [trimEnd_append_cons hb', trimChars_append_cons hb', trimChars_append_cons hb',
      trimEnd_trimEnd]

theorem trimChars_trimChars (s : List Char) : trimChars (trimChars s) = trimChars s := by
  show trimChars (trimEnd (trimStart s)) = trimChars s
  rw [trimChars_trimEnd, trimChars_trimStart]

/-- A text that is not empty and has no blanks at its ends. -/
def IsTight (s : List Char) : Prop := s ≠ [] ∧ trimChars s = s

instance (s : List Char) : Decidable (IsTight s) := by unfold IsTight; infer_instance

theorem isTight_trimChars {s : List Char} (h : trimChars s ≠ []) : IsTight (trimChars s) :=
  ⟨h, trimChars_trimChars s⟩

theorem trimStart_eq_self_iff {s : List Char} :
    trimStart s = s ↔ ∀ c ∈ s.head?, isBlank c = false := by
  rw [trimStart, List.dropWhile_eq_self_iff]
  cases s <;> simp

theorem trimEnd_eq_self_iff {s : List Char} :
    trimEnd s = s ↔ ∀ c ∈ s.getLast?, isBlank c = false := by
  have h : trimEnd s = s ↔ trimStart s.reverse = s.reverse := List.reverse_eq_iff
  rw [h, trimStart_eq_self_iff, List.head?_reverse]

/-- A text is trimmed just if it begins and ends with characters that are not blank. -/
theorem trimChars_eq_self_iff {s : List Char} : trimChars s = s ↔
    (∀ c ∈ s.head?, isBlank c = false) ∧ ∀ c ∈ s.getLast?, isBlank c = false := by
  rw [← trimStart_eq_self_iff, ← trimEnd_eq_self_iff]
  constructor
  · intro h
    have hstart : trimStart s = s := by
      refine (List.dropWhile_suffix _).eq_of_length_le ?_
      conv_lhs => rw [← h]
      exact (List.rdropWhile_prefix isBlank _).length_le
    exact ⟨hstart, by rwa [trimChars, hstart] at h⟩
  · rintro ⟨hstart, hend⟩
    rw [trimChars, hstart, hend]

theorem toList_trim (s : String) : (trim s).toList = trimChars s.toList := by
  rw [trim, String.toList_ofList]

theorem trim_trim (s : String) : trim (trim s) = trim s := by
  rw [trim, toList_trim, trimChars_trimChars, trim]

theorem trim_eq_empty_iff {s : String} : trim s = "" ↔ isBlankText s = true := by
  rw [trim, String.ofList_eq_empty_iff, trimChars_eq_nil_iff, isBlankText, List.all_eq_true]

theorem trim_of_isTight {s : String} (h : IsTight s.toList) : trim s = s := by
  rw [trim, h.2, String.ofList_toList]

/-! ## Splitting -/

theorem infix_of_mem_splitOnP {α : Type} {p : α → Bool} {s part : List α}
    (h : part ∈ s.splitOnP p) : part <:+: s := by
  have hparts : ∀ s : List α, ∃ first rest, s.splitOnP p = first :: rest ∧ first <+: s ∧
      ∀ part ∈ rest, part <:+: s := by
    intro s
    induction s with
    | nil => exact ⟨[], [], by simp, List.prefix_rfl, by simp⟩
    | cons c s ih =>
      obtain ⟨first, rest, hs, hfirst, hrest⟩ := ih
      rw [List.splitOnP_cons_eq_if_modifyHead, hs]
      by_cases hc : p c = true
      · refine ⟨[], first :: rest, by rw [if_pos hc], List.nil_prefix, fun part hp => ?_⟩
        rcases List.mem_cons.1 hp with rfl | hp
        · exact hfirst.isInfix.trans (List.suffix_cons c s).isInfix
        · exact (hrest part hp).trans (List.suffix_cons c s).isInfix
      · refine ⟨c :: first, rest, by rw [if_neg hc]; rfl, List.prefix_cons_inj c |>.2 hfirst, ?_⟩
        exact fun part hp => (hrest part hp).trans (List.suffix_cons c s).isInfix
  obtain ⟨first, rest, hs, hfirst, hrest⟩ := hparts s
  rw [hs] at h
  rcases List.mem_cons.1 h with rfl | h
  · exact hfirst.isInfix
  · exact hrest part h

theorem flatten_splitOnP {α : Type} (p : α → Bool) (s : List α) :
    (s.splitOnP p).flatten = s.filter (!p ·) := by
  induction s with
  | nil => simp
  | cons c s ih =>
    rw [List.splitOnP_cons_eq_if_modifyHead]
    by_cases hc : p c = true
    · rw [if_pos hc, List.flatten_cons, List.nil_append, ih, List.filter_cons_of_neg (by simp [hc])]
    · obtain ⟨first, rest, hs⟩ := List.exists_cons_of_ne_nil (List.splitOnP_ne_nil p s)
      rw [if_neg hc, List.filter_cons_of_pos (by simpa using hc), ← ih, hs]
      rfl

/-- No part has a separator in it. -/
theorem not_of_mem_splitOnP {α : Type} {p : α → Bool} {s part : List α} (h : part ∈ s.splitOnP p)
    {c : α} (hc : c ∈ part) : p c = false := by
  have hmem := List.mem_flatten_of_mem h hc
  rw [flatten_splitOnP] at hmem
  simpa using (List.mem_filter.1 hmem).2

end TemplateStyles.Text
