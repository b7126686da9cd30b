import TemplateStyles.Proofs.Property.Spelling
/-!
# Camel case and hyphens

`toKebab` and `toCamel` go back and forth between two sets of names: those in camel case
(`IsCamel`) and those without capital letters (`IsKebab`). Each conversion ends in its set, whatever
it starts from, and there the other one undoes it. Main result `toCamel_toKebab_inverse`: these are
the only names that come back as they were.
-/
namespace TemplateStyles.Property

/-- There is no ASCII capital letter. -/
def IsKebab (s : List Char) : Prop := ∀ c ∈ s, c.isUpper = false

instance (s : List Char) : Decidable (IsKebab s) :=
  decidable_of_iff (s.all fun c => !c.isUpper) (by simp [IsKebab])

theorem isKebab_cons {c : Char} {s : List Char} :
    IsKebab (c :: s) ↔ c.isUpper = false ∧ IsKebab s := by
  simp [IsKebab]

theorem isKebab_kebabChars (s : List Char) : IsKebab (kebabChars s) :=
  fun _ hc => isUpper_of_mem_kebabChars hc

theorem kebabChars_cons_of_isUpper {c : Char} (h : c.isUpper = true) (s : List Char) :
    kebabChars (c :: s) = '-' :: c.toLower :: kebabChars s := by
  simp [kebabChars_cons, h]

theorem kebabChars_cons_of_not_isUpper {c : Char} (h : c.isUpper = false) (s : List Char) :
    kebabChars (c :: s) = c :: kebabChars s := by
  simp [kebabChars_cons, h]

/-- **A name without capital letters is hyphenated as it was before.** -/
theorem kebabChars_camelChars {s : List Char} (h : IsKebab s) : kebabChars (camelChars s) = s := by
  induction s using camelChars.induct with
  | case1 => rfl
  | case2 c r hc ih =>
    have hupper : c.toUpper.isUpper = true := by simp [Char.isAlpha, hc]
    have hlower : c.toUpper.toLower = c := by
      rw [Char.toLower_toUpper_eq_toLower, Char.toLower_eq_of_not_isUpper]
      exact Char.not_isUpper_of_isLower hc
    simp only [isKebab_cons] at h
    rw [camelChars_of_isLower hc, kebabChars_cons_of_isUpper hupper, hlower, ih h.2.2]
  | case3 c r hc ih =>
    -- the scan takes up again right behind a hyphen that stays, so a second one is seen
    rw [isKebab_cons] at h
    rw [camelChars, if_neg hc, kebabChars_cons_of_not_isUpper h.1, ih h.2]
  | case4 c r hr ih =>
    rw [isKebab_cons] at h
    rw [camelChars.eq_3 c r hr, kebabChars_cons_of_not_isUpper h.1, ih h.2]

/-! ## Names -/

theorem isCamel_toCamel (name : String) : IsCamel (toCamel name).toList := by
  rw [toCamel, String.toList_ofList]
  exact isCamel_camelChars _

theorem isKebab_toKebab (name : String) : IsKebab (toKebab name).toList := by
  rw [toKebab, String.toList_ofList]
  exact isKebab_kebabChars _

theorem toKebab_toCamel {name : String} (h : IsKebab name.toList) :
    toKebab (toCamel name) = name := by
  rw [toKebab, toCamel, String.toList_ofList, kebabChars_camelChars h, String.ofList_toList]

/-- **The conversions are inverse to each other**, between the names in camel case and the names
without capital letters, and nowhere else. -/
theorem toCamel_toKebab_inverse :
    (∀ name, toCamel (toKebab name) = name ↔ IsCamel name.toList) ∧
      (∀ name, toKebab (toCamel name) = name ↔ IsKebab name.toList) ∧
      (∀ name, IsCamel (toCamel name).toList) ∧ ∀ name, IsKebab (toKebab name).toList := by
  refine ⟨fun name => ⟨fun h => ?_, toCamel_toKebab⟩, fun name => ⟨fun h => ?_, toKebab_toCamel⟩,
    isCamel_toCamel, isKebab_toKebab⟩
  · rw [← h]
    exact isCamel_toCamel _
  · rw [← h]
    exact isKebab_toKebab _

/-- Of two hyphens the first one stays: a small letter follows only the second. -/
example : IsKebab "--a-2".toList ∧ toCamel "--a-2" = "-A-2" ∧ toKebab "-A-2" = "--a-2" ∧
    IsCamel "-A-2".toList := by
  decide

end TemplateStyles.Property
