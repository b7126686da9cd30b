import Mathlib
import TemplateStyles.Proofs.Text.Trimming
import TemplateStyles.Property.Name
/-!
# Spellings of property names

A name in camel case has no hyphen in front of a small letter (`IsCamel`). Reading a hyphenated
spelling gives such a name (`isCamel_camelChars`), and every such name is read back from its
hyphenated spelling (`camelChars_kebabChars`). So a name that a block sets has this spelling as
another one, as far as the table allows it (`normalize_toKebab`).
-/
namespace TemplateStyles.Property

/-- No hyphen stands in front of an ASCII lower-case letter. -/
def IsCamel (s : List Char) : Prop := s.IsChain fun a b => a = '-' → b.isLower = false

instance (s : List Char) : Decidable (IsCamel s) := by unfold IsCamel; infer_instance

theorem isCamel_cons {c : Char} {s : List Char} :
    IsCamel (c :: s) ↔ (c = '-' → ∀ d ∈ s.head?, d.isLower = false) ∧ IsCamel s := by
  rw [IsCamel, List.isChain_cons, IsCamel]
  exact and_congr_left fun _ => ⟨fun h hc d hd => h d hd hc, fun h d hd hc => h hc d hd⟩

/-! ## Reading a hyphenated name -/

@[simp] theorem camelChars_nil : camelChars [] = [] := rfl

theorem camelChars_cons_of_ne {c : Char} (h : c ≠ '-') (s : List Char) :
    camelChars (c :: s) = c :: camelChars s := by
  rw [camelChars]
  rintro d r rfl
  exact absurd rfl h

theorem camelChars_of_isLower {c : Char} (h : c.isLower = true) (s : List Char) :
    camelChars ('-' :: c :: s) = c.toUpper :: camelChars s := by
  rw [camelChars, if_pos h]

theorem camelChars_of_not_isLower {s : List Char} (h : ∀ d ∈ s.head?, d.isLower = false) :
    camelChars ('-' :: s) = '-' :: camelChars s := by
  cases s with
  | nil => rfl
  | cons d s => rw [camelChars, if_neg (by simp [h d rfl])]

/-! ## There and back -/

theorem kebabChars_cons (c : Char) (s : List Char) :
    kebabChars (c :: s) = (if c.isUpper then ['-', c.toLower] else [c]) ++ kebabChars s := rfl

/-- A hyphenated spelling begins with a small letter only if the name does. -/
theorem head?_kebabChars {s : List Char} (h : ∀ d ∈ s.head?, d.isLower = false) :
    ∀ d ∈ (kebabChars s).head?, d.isLower = false := by
  cases s with
  | nil => simp [kebabChars]
  | cons c s =>
    rw [kebabChars_cons]
    by_cases hc : c.isUpper = true
    · simp [hc]
    · simpa [hc] using h

/-- **A name in camel case is read back from its hyphenated spelling.** -/
theorem camelChars_kebabChars {s : List Char} (h : IsCamel s) : camelChars (kebabChars s) = s := by
  induction s with
  | nil => rfl
  | cons c s ih =>
    obtain ⟨hhead, hrest⟩ := isCamel_cons.1 h
    rw [kebabChars_cons]
    by_cases hc : c.isUpper = true
    · have hlower : c.toLower.isLower = true := by simp [Char.isAlpha, hc]
      have hupper : c.toLower.toUpper = c := by
        rw [Char.toUpper_toLower_eq_toUpper,
          Char.toUpper_eq_of_not_isLower (Char.not_isLower_of_isUpper hc)]
      rw [if_pos hc, List.cons_append, List.singleton_append, camelChars_of_isLower hlower, hupper,
        ih hrest]
    · rw [if_neg hc, List.singleton_append]
      by_cases hhyphen : c = '-'
      · rw [hhyphen, camelChars_of_not_isLower (head?_kebabChars (hhead hhyphen)), ih hrest]
      · rw [camelChars_cons_of_ne hhyphen, ih hrest]

theorem toCamel_toKebab {name : String} (h : IsCamel name.toList) :
    toCamel (toKebab name) = name := by
  rw [toCamel, toKebab, String.toList_ofList, camelChars_kebabChars h, String.ofList_toList]

/-- What is read begins with a small letter only if the hyphenated name does. -/
theorem head?_camelChars {s : List Char} (h : ∀ d ∈ s.head?, d.isLower = false) :
    ∀ d ∈ (camelChars s).head?, d.isLower = false := by
  unfold camelChars
  split
  · simp
  · split
    · simp
    · simp [Char.isLower]
  · simpa using h

/-- **Reading gives a name in camel case.** -/
theorem isCamel_camelChars (s : List Char) : IsCamel (camelChars s) := by
  induction s using camelChars.induct with
  | case1 => exact List.isChain_nil
  | case2 c r hc ih =>
    rw [camelChars_of_isLower hc, isCamel_cons]
    have hupper : c.toUpper.isUpper = true := by simp [Char.isAlpha, hc]
    refine ⟨fun h => ?_, ih⟩
    rw [h] at hupper
    exact absurd hupper (by decide)
  | case3 c r hc ih =>
    have hhead : ∀ d ∈ (c :: r).head?, d.isLower = false := by simpa using hc
    rw [camelChars_of_not_isLower hhead, isCamel_cons]
    exact ⟨fun _ => head?_camelChars hhead, ih⟩
  | case4 c r hc ih =>
    rw [camelChars.eq_3 c r hc, isCamel_cons]
    refine ⟨fun hhyphen => ?_, ih⟩
    cases r with
    | nil => simp
    | cons d r => exact absurd rfl (hc d r hhyphen)

/-! ## Characters of the spellings -/

/-- Beside capital letters, reading a name adds no character. -/
theorem mem_of_mem_camelChars {c : Char} (hc : c.isUpper = false) {s : List Char}
    (h : c ∈ camelChars s) : c ∈ s := by
  induction s using camelChars.induct with
  | case1 => exact h
  | case2 d r hd ih =>
    rw [camelChars_of_isLower hd, List.mem_cons] at h
    rcases h with rfl | h
    · simp [Char.isAlpha, hd] at hc
    · exact List.mem_cons_of_mem _ (List.mem_cons_of_mem _ (ih h))
  | case3 d r hd ih =>
    rw [camelChars, if_neg hd, List.mem_cons] at h
    exact List.mem_cons.2 (h.imp_right ih)
  | case4 d r hd ih =>
    rw [camelChars.eq_3 d r hd, List.mem_cons] at h
    exact List.mem_cons.2 (h.imp_right ih)

/-- A hyphen is kept or leaves a capital letter. -/
theorem exists_mem_camelChars {s : List Char} (h : '-' ∈ s) :
    ∃ c ∈ camelChars s, c = '-' ∨ c.isUpper = true := by
  induction s using camelChars.induct with
  | case1 => simp at h
  | case2 d r hd ih =>
    rw [camelChars_of_isLower hd]
    exact ⟨d.toUpper, List.mem_cons_self .., .inr (by simp [Char.isAlpha, hd])⟩
  | case3 d r hd ih =>
    rw [camelChars, if_neg hd]
    exact ⟨'-', List.mem_cons_self .., .inl rfl⟩
  | case4 d r hd ih =>
    rw [camelChars.eq_3 d r hd]
    rcases List.mem_cons.1 h with rfl | h
    · exact ⟨'-', List.mem_cons_self .., .inl rfl⟩
    · obtain ⟨c, hc, hkind⟩ := ih h
      exact ⟨c, List.mem_cons_of_mem _ hc, hkind⟩

/-- Beside hyphens and small letters, a hyphenated spelling adds no character. -/
theorem mem_of_mem_kebabChars {c : Char} (hc : c.isLower = false) (hhyphen : c ≠ '-')
    {s : List Char} (h : c ∈ kebabChars s) : c ∈ s := by
  obtain ⟨d, hd, hmem⟩ := List.mem_flatMap.1 h
  by_cases hupper : d.isUpper = true
  · rw [if_pos hupper, List.mem_cons, List.mem_singleton] at hmem
    rw [hmem.resolve_left hhyphen] at hc
    simp [Char.isAlpha, hupper] at hc
  · rw [if_neg hupper, List.mem_singleton] at hmem
    rwa [hmem]

/-- A hyphenated spelling has no capital letter. -/
theorem isUpper_of_mem_kebabChars {c : Char} {s : List Char} (h : c ∈ kebabChars s) :
    c.isUpper = false := by
  obtain ⟨d, -, hmem⟩ := List.mem_flatMap.1 h
  by_cases hupper : d.isUpper = true
  · rw [if_pos hupper, List.mem_cons, List.mem_singleton] at hmem
    rcases hmem with rfl | rfl
    · decide
    · simp
  · rw [if_neg hupper, List.mem_singleton] at hmem
    rw [hmem]
    exact Bool.eq_false_iff.2 hupper

/-- A name whose hyphenated spelling has no hyphen is spelled that way. -/
theorem kebabChars_eq_self {s : List Char} (h : '-' ∉ kebabChars s) : kebabChars s = s := by
  induction s with
  | nil => rfl
  | cons c s ih =>
    rw [kebabChars_cons] at h ⊢
    by_cases hc : c.isUpper = true
    · simp [hc] at h
    · rw [if_neg hc, List.singleton_append] at h ⊢
      rw [ih fun hmem => h (List.mem_cons_of_mem _ hmem)]

/-! ## Ends of the spellings -/

theorem isBlank_eq_false_of_isAlpha {c : Char} (h : c.isAlpha = true) :
    Text.isBlank c = false := by
  have hrange : 65 ≤ c.toNat ∧ c.toNat ≤ 122 := by
    simp only [Char.isAlpha, Char.isUpper, Char.isLower, Bool.or_eq_true, Bool.and_eq_true,
      decide_eq_true_eq, UInt32.le_iff_toNat_le, ge_iff_le] at h
    have hval : c.toNat = c.val.toNat := rfl
    rcases h with h | h <;> simp only [UInt32.reduceToNat, Char.reduceVal] at h <;> omega
  exact Text.isBlank_eq_false_of_ascii (by omega) (by omega)

theorem kebabChars_eq_nil_iff {s : List Char} : kebabChars s = [] ↔ s = [] := by
  cases s with
  | nil => simp [kebabChars]
  | cons c s =>
    rw [kebabChars_cons]
    by_cases hc : c.isUpper = true <;> simp [hc]

theorem isTight_kebabChars {s : List Char} (h : Text.IsTight s) : Text.IsTight (kebabChars s) := by
  obtain ⟨hne, htrim⟩ := h
  obtain ⟨hhead, hlast⟩ := Text.trimChars_eq_self_iff.1 htrim
  refine ⟨fun hnil => hne (kebabChars_eq_nil_iff.1 hnil), Text.trimChars_eq_self_iff.2 ⟨?_, ?_⟩⟩
  · obtain ⟨c, s, rfl⟩ := List.exists_cons_of_ne_nil hne
    rw [kebabChars_cons]
    by_cases hc : c.isUpper = true
    · have hhyphen : Text.isBlank '-' = false := by decide
      simpa [hc] using hhyphen
    · simpa [hc] using hhead
  · obtain ⟨s, c, rfl⟩ := (List.eq_nil_or_concat s).resolve_left hne
    rw [List.concat_eq_append] at hlast ⊢
    rw [kebabChars, List.flatMap_append, List.flatMap_singleton]
    by_cases hc : c.isUpper = true
    · have hlower : Text.isBlank c.toLower = false :=
        isBlank_eq_false_of_isAlpha (by simp [Char.isAlpha, hc])
      simpa [hc] using hlower
    · simpa [hc] using hlast

theorem camelChars_eq_nil_iff {s : List Char} : camelChars s = [] ↔ s = [] := by
  unfold camelChars
  split
  · simp
  · split <;> simp
  · simp

/-- The last character is kept, perhaps as a capital letter. -/
theorem getLast?_camelChars {s : List Char} (h : ∀ c ∈ s.getLast?, Text.isBlank c = false) :
    ∀ c ∈ (camelChars s).getLast?, Text.isBlank c = false := by
  -- what stands behind a first character is either empty or has the same last one
  have hrest : ∀ {d : Char} {r : List Char}, (∀ c ∈ (d :: r).getLast?, Text.isBlank c = false) →
      ∀ c ∈ r.getLast?, Text.isBlank c = false := by
    intro d r h c hc
    exact h c (by rw [List.getLast?_cons, Option.mem_def.1 hc]; rfl)
  have hcons : ∀ {d : Char} {r : List Char}, (∀ c ∈ (camelChars r).getLast?,
      Text.isBlank c = false) → (r = [] → Text.isBlank d = false) →
        ∀ c ∈ (d :: camelChars r).getLast?, Text.isBlank c = false := by
    intro d r h hd c hc
    rw [List.getLast?_cons, Option.mem_some_iff] at hc
    cases hr : (camelChars r).getLast? with
    | none =>
      rw [hr, Option.getD_none] at hc
      exact hc ▸ hd (camelChars_eq_nil_iff.1 (List.getLast?_eq_none_iff.1 hr))
    | some e =>
      rw [hr, Option.getD_some] at hc
      exact hc ▸ h e hr
  induction s using camelChars.induct with
  | case1 => simp
  | case2 d r hd ih =>
    rw [camelChars_of_isLower hd]
    have hupper : Text.isBlank d.toUpper = false :=
      isBlank_eq_false_of_isAlpha (by simp [Char.isAlpha, hd])
    exact hcons (ih (hrest (hrest h))) fun _ => hupper
  | case3 d r hd ih =>
    rw [camelChars, if_neg hd]
    exact hcons (ih (hrest h)) fun hnil => absurd hnil (by simp)
  | case4 d r hd ih =>
    rw [camelChars.eq_3 d r hd]
    exact hcons (ih (hrest h)) fun hnil => h d (by simp [hnil])

theorem isTight_camelChars {s : List Char} (h : Text.IsTight s) : Text.IsTight (camelChars s) := by
  obtain ⟨hne, htrim⟩ := h
  obtain ⟨hhead, hlast⟩ := Text.trimChars_eq_self_iff.1 htrim
  refine ⟨fun hnil => hne (camelChars_eq_nil_iff.1 hnil),
    Text.trimChars_eq_self_iff.2 ⟨?_, getLast?_camelChars hlast⟩⟩
  unfold camelChars
  split
  · simp
  · split
    · rename_i c r hc
      have hupper : Text.isBlank c.toUpper = false :=
        isBlank_eq_false_of_isAlpha (by simp [Char.isAlpha, hc])
      simpa using hupper
    · simpa using hhead
  · simpa using hhead

/-! ## Names that a block sets -/

/-- A name as a block can set it. -/
structure IsName (k : String) : Prop where
  camel : IsCamel k.toList
  tight : Text.IsTight k.toList
  colon : ':' ∉ k.toList
  semicolon : ';' ∉ k.toList

instance (k : String) : Decidable (IsName k) :=
  decidable_of_iff (IsCamel k.toList ∧ Text.IsTight k.toList ∧ ':' ∉ k.toList ∧ ';' ∉ k.toList)
    ⟨fun h => ⟨h.1, h.2.1, h.2.2.1, h.2.2.2⟩, fun h => ⟨h.1, h.2, h.3, h.4⟩⟩

theorem isCamel_of_not_mem {s : List Char} (h : '-' ∉ s) : IsCamel s := by
  induction s with
  | nil => exact List.isChain_nil
  | cons c s ih =>
    simp only [List.mem_cons, not_or] at h
    exact isCamel_cons.2 ⟨fun hc => absurd hc.symm h.1, ih h.2⟩

/-- A row of ASCII letters is a name. -/
theorem isName_of_isAlpha {k : String} (hne : k ≠ "") (h : k.toList.all Char.isAlpha = true) :
    IsName k := by
  have halpha : ∀ c ∈ k.toList, c.isAlpha = true := List.all_eq_true.1 h
  have hblank : ∀ c ∈ k.toList, Text.isBlank c = false := fun c hc =>
    isBlank_eq_false_of_isAlpha (halpha c hc)
  have hother : ∀ c : Char, c.isAlpha = false → c ∉ k.toList := fun c hc hmem => by
    rw [halpha c hmem] at hc
    exact absurd hc (by simp)
  refine ⟨isCamel_of_not_mem (hother _ (by decide)), ⟨by simpa using hne, ?_⟩,
    hother _ (by decide), hother _ (by decide)⟩
  exact Text.trimChars_eq_self_iff.2 ⟨fun c hc => hblank c (List.mem_of_mem_head? hc),
    fun c hc => hblank c (List.mem_of_getLast? hc)⟩

theorem canonicalNames_isAlpha :
    ∀ e ∈ canonicalNames, e.2 ≠ "" ∧ e.2.toList.all Char.isAlpha = true := by
  decide +kernel

/-- The canonical name of a property as written is a name that a block can set. -/
theorem isName_normalize {p : String} (htight : Text.IsTight p.toList) (hcolon : ':' ∉ p.toList)
    (hsemicolon : ';' ∉ p.toList) : IsName (normalize p) := by
  rw [normalize, Text.trim_of_isTight htight, normalizeTrimmed]
  by_cases hhyphen : '-' ∈ p.toList
  · rw [if_pos hhyphen]
    cases hlisted : canonical? (lower p) with
    | some name =>
      obtain ⟨hne, halpha⟩ := canonicalNames_isAlpha _ (Entries.mem_of_find? hlisted)
      exact isName_of_isAlpha hne halpha
    | none =>
      have hchars : (toCamel p).toList = camelChars p.toList := by
        rw [toCamel, String.toList_ofList]
      rw [Option.getD_none]
      constructor <;> rw [hchars]
      · exact isCamel_camelChars _
      · exact isTight_camelChars htight
      · exact fun hmem => hcolon (mem_of_mem_camelChars (by decide) hmem)
      · exact fun hmem => hsemicolon (mem_of_mem_camelChars (by decide) hmem)
  · rw [if_neg hhyphen]
    exact ⟨isCamel_of_not_mem hhyphen, htight, hcolon, hsemicolon⟩

/-- A hyphenated spelling adds only hyphens and small letters. -/
theorem not_mem_toKebab {c : Char} (hc : c.isLower = false) (hhyphen : c ≠ '-') {k : String}
    (h : c ∉ k.toList) : c ∉ (toKebab k).toList := by
  rw [toKebab, String.toList_ofList]
  exact fun hmem => h (mem_of_mem_kebabChars hc hhyphen hmem)

theorem IsName.isTight_toKebab {k : String} (h : IsName k) :
    Text.IsTight (toKebab k).toList := by
  rw [toKebab, String.toList_ofList]
  exact isTight_kebabChars h.tight

/-- **A name that a block sets is the canonical name of its hyphenated spelling**, unless the table
has another name for this spelling. -/
theorem normalize_toKebab {k : String} (h : IsName k)
    (hlisted : ∀ name, canonical? (lower (toKebab k)) = some name → name = k) :
    normalize (toKebab k) = k := by
  rw [normalize, Text.trim_of_isTight h.isTight_toKebab, normalizeTrimmed]
  by_cases hhyphen : '-' ∈ (toKebab k).toList
  · rw [if_pos hhyphen]
    cases hname : canonical? (lower (toKebab k)) with
    | some name => exact hlisted name hname
    | none => exact toCamel_toKebab h.camel
  · rw [if_neg hhyphen]
    rw [toKebab, String.toList_ofList] at hhyphen
    rw [toKebab, kebabChars_eq_self hhyphen, String.ofList_toList]

end TemplateStyles.Property
