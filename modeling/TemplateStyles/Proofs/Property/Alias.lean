import TemplateStyles.Block.Rule
import TemplateStyles.Proofs.Property.Spelling
/-!
# Names with a hyphenated spelling of their own

A name without hyphen is canonical, and so is what its hyphenated spelling is converted to, but the
table comes first. All but one of its entries agree with the conversion
(`toKebab_of_mem_canonicalNames`): `text-decoration` stands for the property `textDecorationLine`.
And what is looked up is in lower case, where a Kelvin sign is a `k`. Main result
`normalize_toKebab_iff`: these are the only names that a block may not spell both ways;
`normalize_textDecoration` is one of them.
-/
namespace TemplateStyles.Property

/-! ## Spellings without outer blanks -/

theorem trim_toKebab {n : String} (h : Text.trim n = n) : Text.trim (toKebab n) = toKebab n := by
  by_cases hempty : n = ""
  · rw [hempty]
    decide
  · have htrim : Text.trimChars n.toList = n.toList := by rw [← Text.toList_trim, h]
    refine Text.trim_of_isTight ?_
    rw [toKebab, String.toList_ofList]
    exact isTight_kebabChars ⟨by simpa using hempty, htrim⟩

theorem normalize_of_trim {n : String} (h : Text.trim n = n) : normalize n = normalizeTrimmed n := by
  rw [normalize, h]

theorem toKebab_eq_self {n : String} (h : '-' ∉ (toKebab n).toList) : toKebab n = n := by
  rw [toKebab, String.toList_ofList] at h
  rw [toKebab, kebabChars_eq_self h, String.ofList_toList]

theorem toCamel_toKebab_of_not_mem {n : String} (h : '-' ∉ n.toList) : toCamel (toKebab n) = n :=
  toCamel_toKebab (isCamel_of_not_mem h)

/-! ## The table -/

/-- **The entries of the table agree with the conversion**, but for one. -/
theorem toKebab_of_mem_canonicalNames :
    ∀ e ∈ canonicalNames, e = ("text-decoration", "textDecorationLine") ∨ toKebab e.2 = e.1 := by
  decide +kernel

theorem hyphen_mem_of_mem_canonicalNames {e : String × String} (he : e ∈ canonicalNames) :
    '-' ∈ e.1.toList := by
  have hne : ∀ e ∈ canonicalNames, e.1 ≠ e.2 := by decide +kernel
  rcases toKebab_of_mem_canonicalNames e he with rfl | hkebab
  · decide
  · by_contra hhyphen
    rw [← hkebab] at hhyphen
    exact hne e he (by rw [← hkebab, toKebab_eq_self hhyphen])

theorem not_mem_of_mem_canonicalNames {e : String × String} (he : e ∈ canonicalNames) {c : Char}
    (hc : c.isAlpha = false) : c ∉ e.2.toList := by
  intro hmem
  have halpha := List.all_eq_true.1 (canonicalNames_isAlpha e he).2 c hmem
  rw [hc] at halpha
  exact absurd halpha (by decide)

/-! ## Lower case -/

/-- A hyphenated spelling is in lower case, if it has no Kelvin sign. -/
theorem lower_toKebab {n : String} (h : '\u212a' ∉ n.toList) : lower (toKebab n) = toKebab n := by
  have hchars : (kebabChars n.toList).map lowerChar = kebabChars n.toList := by
    refine (List.map_congr_left fun c hc => ?_).trans (List.map_id _)
    have hkelvin : c ≠ '\u212a' := by
      rintro rfl
      exact h (mem_of_mem_kebabChars (by decide) (by decide) hc)
    rw [lowerChar, if_neg hkelvin, Char.toLower_eq_of_not_isUpper]
    · rfl
    · simp [isUpper_of_mem_kebabChars hc]
  rw [lower, toKebab, String.toList_ofList, hchars]

/-- Lower case adds no hyphen. -/
theorem hyphen_mem_of_mem_lower {name : String} (h : '-' ∈ (lower name).toList) :
    '-' ∈ name.toList := by
  rw [lower, String.toList_ofList] at h
  obtain ⟨c, hc, hlower⟩ := List.mem_map.1 h
  unfold lowerChar at hlower
  split at hlower
  · exact absurd hlower (by decide)
  · by_cases hupper : c.isUpper = true
    · have halpha : c.toLower.isLower = true := by simp [Char.isAlpha, hupper]
      rw [hlower] at halpha
      exact absurd halpha (by decide)
    · rw [Char.toLower_eq_of_not_isUpper hupper] at hlower
      rwa [← hlower]

/-! ## Names and their hyphenated spellings -/

/-- The hyphenated spelling of the name is listed for another name: `text-decoration`, and names
with a Kelvin sign that are looked up as if it were a `k`. -/
def IsAliased (n : String) : Prop :=
  n = "textDecoration" ∨
    '\u212a' ∈ n.toList ∧ lower (toKebab n) ∈ canonicalNames.map Prod.fst

/-- **A hyphenated spelling that is listed is listed for its name**, unless it is an alias. -/
theorem eq_of_canonical? {n name : String} (hhyphen : '-' ∉ n.toList) (halias : ¬ IsAliased n)
    (h : canonical? (lower (toKebab n)) = some name) : name = n := by
  have hentry := Entries.mem_of_find? h
  have hkelvin : '\u212a' ∉ n.toList := fun hmem =>
    halias (.inr ⟨hmem, List.mem_map.2 ⟨_, hentry, rfl⟩⟩)
  rw [lower_toKebab hkelvin] at hentry
  rcases toKebab_of_mem_canonicalNames _ hentry with heq | heq
  · have hself : n = toCamel "text-decoration" := by
      rw [← (Prod.mk.inj heq).1, toCamel_toKebab_of_not_mem hhyphen]
    exact absurd (.inl (hself.trans (by decide))) halias
  · have hname : '-' ∉ name.toList := not_mem_of_mem_canonicalNames hentry (by decide)
    rw [← toCamel_toKebab_of_not_mem hhyphen, ← toCamel_toKebab_of_not_mem hname]
    exact congrArg toCamel heq

theorem normalize_toKebab_of_not_isAliased {n : String} (hhyphen : '-' ∉ n.toList)
    (htrim : Text.trim n = n) (halias : ¬ IsAliased n) : normalize (toKebab n) = n := by
  rw [normalize_of_trim (trim_toKebab htrim), normalizeTrimmed]
  split
  · cases hname : canonical? (lower (toKebab n)) with
    | some name => exact eq_of_canonical? hhyphen halias hname
    | none => exact toCamel_toKebab_of_not_mem hhyphen
  · rename_i hkebab
    exact toKebab_eq_self hkebab

/-- An alias stands for a name of the table, which has no Kelvin sign. -/
theorem normalize_toKebab_of_isAliased {n : String} (htrim : Text.trim n = n)
    (halias : IsAliased n) : normalize (toKebab n) ≠ n := by
  rcases halias with rfl | ⟨hkelvin, hlisted⟩
  · decide +kernel
  · obtain ⟨e, he, hkey⟩ := List.mem_map.1 hlisted
    have hhyphen : '-' ∈ (toKebab n).toList := by
      refine hyphen_mem_of_mem_lower ?_
      rw [← hkey]
      exact hyphen_mem_of_mem_canonicalNames he
    obtain ⟨name, hname⟩ : ∃ name, canonical? (lower (toKebab n)) = some name := by
      rw [← Option.ne_none_iff_exists', ne_eq, canonical?, Entries.find?_eq_none_iff, not_not]
      exact hlisted
    rw [normalize_of_trim (trim_toKebab htrim), normalizeTrimmed, if_pos hhyphen, hname,
      Option.getD_some]
    rintro rfl
    exact not_mem_of_mem_canonicalNames (Entries.mem_of_find? hname) (by decide) hkelvin

/-- A hyphenated spelling is a box shorthand of blocks just if the name is. -/
theorem toKebab_mem_inBlocks_iff {n : String} (h : '-' ∉ n.toList) :
    toKebab n ∈ BoxShorthand.inBlocks ↔ n ∈ BoxShorthand.inBlocks := by
  have hself : ∀ name ∈ BoxShorthand.inBlocks, toKebab name = name ∧ toCamel name = name := by
    decide
  constructor
  · intro hmem
    rwa [← (hself _ hmem).2, toCamel_toKebab_of_not_mem h] at hmem
  · intro hmem
    rwa [(hself n hmem).1]

theorem expandShorthand?_toKebab {n : String} (hhyphen : '-' ∉ n.toList) (htrim : Text.trim n = n)
    (value : String) :
    Declaration.expandShorthand? (toKebab n) value = Declaration.expandShorthand? n value := by
  unfold Declaration.expandShorthand? BoxShorthand.expandAmong?
  rw [trim_toKebab htrim, htrim]
  by_cases hmem : n ∈ BoxShorthand.inBlocks
  · have hself : toKebab n = n := by
      have hnames : ∀ name ∈ BoxShorthand.inBlocks, toKebab name = name := by decide
      exact hnames n hmem
    rw [hself]
  · rw [if_neg hmem, if_neg fun h => hmem ((toKebab_mem_inBlocks_iff hhyphen).1 h)]

/-- **Which names may be spelled both ways.** The hyphenated spelling of a name without hyphen and
outer blanks has the canonical name that the name itself has, unless the spelling is listed for
another name. So a declaration may use either spelling: it writes the same into a rule. -/
theorem normalize_toKebab_iff {n : String} (hhyphen : '-' ∉ n.toList) (htrim : Text.trim n = n) :
    (normalize (toKebab n) = normalize n ↔ ¬ IsAliased n) ∧
      (¬ IsAliased n → ∀ value, (Declaration.mk (toKebab n) value).write =
        (Declaration.mk n value).write) := by
  have hself : normalize n = n := by
    rw [normalize_of_trim htrim, normalizeTrimmed, if_neg hhyphen]
  have hkebab := normalize_toKebab_of_not_isAliased hhyphen htrim
  rw [hself]
  refine ⟨⟨fun h halias => normalize_toKebab_of_isAliased htrim halias h, hkebab⟩, ?_⟩
  intro halias value
  have hcanonical : (Declaration.mk (toKebab n) value).canonical =
      (Declaration.mk n value).canonical := by
    rw [Declaration.canonical, Declaration.canonical, hkebab halias, hself]
  unfold Declaration.write
  rw [hcanonical, expandShorthand?_toKebab hhyphen htrim]

/-- A name whose hyphenated spelling is listed, with a Kelvin sign, and one without it. -/
theorem normalize_toKebab_iff_kelvin :
    normalize (toKebab "bac\u212agroundColor") ≠ normalize "bac\u212agroundColor" ∧
      normalize (toKebab "backgroundColor") = normalize "backgroundColor" := by
  refine ⟨fun h => ?_, ?_⟩
  · exact (normalize_toKebab_iff (by decide) (by decide +kernel)).1.1 h
      (.inr ⟨by decide, by decide +kernel⟩)
  · refine (normalize_toKebab_iff (by decide) (by decide +kernel)).1.2 ?_
    rintro (h | h)
    · exact absurd h (by decide)
    · exact absurd h.1 (by decide)

/-- Not every name may be spelled both ways: the hyphenated spelling of this one is listed for
another property. -/
theorem normalize_textDecoration :
    '-' ∉ "textDecoration".toList ∧ Text.trim "textDecoration" = "textDecoration" ∧
      normalize (toKebab "textDecoration") = "textDecorationLine" ∧
      normalize "textDecoration" = "textDecoration" := by
  decide +kernel

end TemplateStyles.Property
