import TemplateStyles.Proofs.Text.Trimming
/-!
# Words of a text

How many words a text has depends only on where its blanks are (`wordCount_congr`): a trimmed text
with a blank in it has at least two (`one_lt_wordCount_iff`). A quote at each end of a trimmed text
makes no word of its own (`wordCount_enclosed`).
-/
namespace TemplateStyles.Text

/-- How many runs of characters that are not blank a text has. -/
def wordCount (s : List Char) : Nat := ((s.splitOnP isBlank).filter (· ≠ [])).length

theorem length_words (s : String) : (words s).length = wordCount s.toList := by
  rw [words, List.length_map, wordCount]

@[simp] theorem wordCount_nil : wordCount [] = 0 := by simp [wordCount]

theorem wordCount_of_isBlank {c : Char} (h : isBlank c = true) (s : List Char) :
    wordCount (c :: s) = wordCount s := by
  rw [wordCount, List.splitOnP_cons_eq_if_modifyHead, if_pos h, List.filter_cons_of_neg (by simp),
    wordCount]

/-- The first piece of a text is empty just if a blank or nothing comes first. -/
theorem splitOnP_isBlank_eq_cons (s : List Char) : ∃ first rest,
    s.splitOnP isBlank = first :: rest ∧ (first = [] ↔ s.head?.all isBlank = true) := by
  cases s with
  | nil => exact ⟨[], [], by simp⟩
  | cons c s =>
    rw [List.splitOnP_cons_eq_if_modifyHead]
    by_cases hc : isBlank c = true
    · exact ⟨[], _, if_pos hc, by simp [hc]⟩
    · obtain ⟨first, rest, hs⟩ := List.exists_cons_of_ne_nil (List.splitOnP_ne_nil isBlank s)
      exact ⟨c :: first, rest, by rw [if_neg hc, hs]; rfl, by simp [hc]⟩

/-- A character that is not blank begins a word just if no such character follows it. -/
theorem wordCount_of_not_isBlank {c : Char} (h : isBlank c = false) (s : List Char) :
    wordCount (c :: s) = wordCount s + if s.head?.all isBlank then 1 else 0 := by
  obtain ⟨first, rest, hs, hfirst⟩ := splitOnP_isBlank_eq_cons s
  rw [wordCount, wordCount, List.splitOnP_cons_eq_if_modifyHead, if_neg (by simp [h]), hs,
    List.modifyHead_cons, List.filter_cons_of_pos (by simp), List.length_cons]
  by_cases hnil : first = []
  · rw [if_pos (hfirst.1 hnil), List.filter_cons_of_neg (by simp [hnil])]
  · rw [if_neg (fun hall => hnil (hfirst.2 hall)), List.filter_cons_of_pos (by simpa using hnil),
      List.length_cons]

/-- Where the blanks are decides how many words there are. -/
theorem wordCount_congr {s t : List Char} (h : s.map isBlank = t.map isBlank) :
    wordCount s = wordCount t := by
  induction s generalizing t with
  | nil => rw [List.map_eq_nil_iff.1 h.symm]
  | cons c s ih =>
    obtain ⟨d, t, rfl⟩ : ∃ d t', t = d :: t' := by
      cases t with
      | nil => simp at h
      | cons d t => exact ⟨d, t, rfl⟩
    obtain ⟨hc, hrest⟩ := List.cons.inj h
    have hhead : s.head?.all isBlank = t.head?.all isBlank := by
      have := congrArg List.head? hrest
      rw [List.head?_map, List.head?_map] at this
      cases hs : s.head? <;> cases ht : t.head? <;> simp [hs, ht] at this ⊢
      exact this
    by_cases hblank : isBlank c = true
    · rw [wordCount_of_isBlank hblank, wordCount_of_isBlank (hc ▸ hblank), ih hrest]
    · have hblank' : isBlank c = false := by simpa using hblank
      rw [wordCount_of_not_isBlank hblank', wordCount_of_not_isBlank (hc ▸ hblank'), ih hrest,
        hhead]

/-- A blank parts the words before it from those behind it. -/
theorem wordCount_append_cons {c : Char} (hc : isBlank c = true) (s t : List Char) :
    wordCount (s ++ c :: t) = wordCount s + wordCount t := by
  rw [wordCount, List.splitOnP_append_cons s t hc, List.filter_append, List.length_append,
    wordCount, wordCount]

theorem wordCount_pos {s : List Char} (h : ∃ c ∈ s, isBlank c = false) : 0 < wordCount s := by
  obtain ⟨c, hc, hblank⟩ := h
  have hflatten : c ∈ (s.splitOnP isBlank).flatten := by
    rw [flatten_splitOnP]
    exact List.mem_filter.2 ⟨hc, by simp [hblank]⟩
  obtain ⟨part, hpart, hmem⟩ := List.mem_flatten.1 hflatten
  refine List.length_pos_of_mem (List.mem_filter.2 ⟨hpart, ?_⟩)
  simpa using List.ne_nil_of_mem hmem

/-- A trimmed text has more than one word just if there is a blank in it. -/
theorem one_lt_wordCount_iff {s : List Char} (h : IsTight s) :
    1 < wordCount s ↔ s.any isBlank = true := by
  obtain ⟨hhead, hlast⟩ := trimChars_eq_self_iff.1 h.2
  constructor
  · intro hcount
    by_contra hblank
    have hall : ∀ c ∈ s, isBlank c = false := by simpa using hblank
    rw [wordCount, List.splitOnP_eq_singleton hall] at hcount
    have := List.length_filter_le (fun part : List Char => decide (part ≠ [])) [s]
    simp only [List.length_singleton] at this
    omega
  · intro hblank
    obtain ⟨c, hc, hcblank⟩ := List.any_eq_true.1 hblank
    obtain ⟨x, y, rfl⟩ := List.append_of_mem hc
    -- the first and the last character are not blank, so there is a word on either side
    have hbefore : 0 < wordCount x := by
      cases x with
      | nil => simp [hcblank] at hhead
      | cons a x => exact wordCount_pos ⟨a, by simp, hhead a (by simp)⟩
    have hbehind : 0 < wordCount y := by
      rcases y.eq_nil_or_concat with rfl | ⟨y, b, rfl⟩
      · simp [hcblank] at hlast
      · rw [List.concat_eq_append] at hlast ⊢
        rw [← List.cons_append, ← List.append_assoc, List.getLast?_concat] at hlast
        exact wordCount_pos ⟨b, by simp, hlast b rfl⟩
    rw [wordCount_append_cons hcblank]
    omega

/-! ## Quotes -/

/-- A text between two characters. -/
def enclosed (q : Char) (s : List Char) : List Char := q :: (s ++ [q])

theorem wordCount_append_singleton {q : Char} (hq : isBlank q = false) {s : List Char}
    (h : ∃ c ∈ s.getLast?, isBlank c = false) : wordCount (s ++ [q]) = wordCount s := by
  induction s with
  | nil => simp at h
  | cons c s ih =>
    by_cases hs : s = []
    · subst hs
      have hc : isBlank c = false := by simpa using h
      simp [wordCount_of_not_isBlank, hc, hq]
    · have hhead : (s ++ [q]).head? = s.head? := List.head?_append_of_ne_nil s hs
      have hlast : ∃ c ∈ s.getLast?, isBlank c = false := by
        rwa [List.getLast?_cons_of_ne_nil hs] at h
      rw [List.cons_append]
      by_cases hblank : isBlank c = true
      · rw [wordCount_of_isBlank hblank, wordCount_of_isBlank hblank, ih hlast]
      · have hblank' : isBlank c = false := by simpa using hblank
        rw [wordCount_of_not_isBlank hblank', wordCount_of_not_isBlank hblank', ih hlast, hhead]

/-- The quotes around a trimmed text belong to its first and its last word. -/
theorem wordCount_enclosed {q : Char} (hq : isBlank q = false) {s : List Char} (h : IsTight s) :
    wordCount (enclosed q s) = wordCount s := by
  obtain ⟨hne, htrim⟩ := h
  obtain ⟨hhead, hlast⟩ := trimChars_eq_self_iff.1 htrim
  have hend : ∃ c ∈ s.getLast?, isBlank c = false :=
    ⟨s.getLast hne, List.getLast?_eq_some_getLast hne, hlast _ (List.getLast?_eq_some_getLast hne)⟩
  have hstart : (s ++ [q]).head?.all isBlank = false := by
    obtain ⟨c, s, rfl⟩ := List.exists_cons_of_ne_nil hne
    simpa using hhead
  rw [enclosed, wordCount_of_not_isBlank hq, hstart, wordCount_append_singleton hq hend]
  rfl

theorem isTight_enclosed {q : Char} (hq : isBlank q = false) (s : List Char) :
    IsTight (enclosed q s) := by
  refine ⟨by simp [enclosed], trimChars_eq_self_iff.2 ⟨?_, ?_⟩⟩
  · simpa [enclosed] using hq
  · simpa [enclosed, List.getLast?_cons] using hq

theorem any_isBlank_enclosed {q : Char} (hq : isBlank q = false) (s : List Char) :
    (enclosed q s).any isBlank = s.any isBlank := by
  simp [enclosed, hq]

end TemplateStyles.Text
