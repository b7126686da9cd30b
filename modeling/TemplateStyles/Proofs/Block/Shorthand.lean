import TemplateStyles.Proofs.Block.RoundTrip
/-!
# Shorthands in blocks

A declaration of a whole box is expanded just if its value has two or four words
(`expandShorthand?_eq`): one word has no blank, since the value is trimmed, and other numbers have
no positional meaning.
-/
namespace TemplateStyles

theorem BoxFamily.find?_eq_some_iff {f : BoxFamily} {name : String} :
    families.find? (·.name = name) = some f ↔ f.name = name := by
  constructor
  · intro h
    simpa using List.find?_some h
  · rintro rfl
    cases f <;> decide

theorem BoxFamily.name_mem_inBlocks (f : BoxFamily) : f.name ∈ BoxShorthand.inBlocks := by
  cases f <;> decide

theorem BoxFamily.exists_name_of_mem {name : String} (h : name ∈ BoxShorthand.inBlocks) :
    ∃ f : BoxFamily, f.name = name := by
  obtain ⟨f, -, rfl⟩ := List.mem_map.1 h
  exact ⟨f, by cases f <;> decide⟩

theorem BoxFamily.key_all (f : BoxFamily) : f.key .all = f.name := by
  cases f <;> decide

theorem BoxShorthand.expandAmong?_name {α : Type} (f : BoxFamily) (values : List α) :
    expandAmong? inBlocks f.name values = f.expand? .all values := by
  have hfound : ofName? f.name = some ⟨f, .all, by decide⟩ := by cases f <;> decide
  rw [expandAmong?, if_pos f.name_mem_inBlocks, hfound]
  rfl

namespace Declaration

variable {d : Declaration}

/-- The family whose whole box a declaration sets. -/
def box? (d : Declaration) : Option BoxFamily := BoxFamily.families.find? (·.name = d.canonical)

/-- The properties that a declaration of a whole box stands for: two values are vertical and
horizontal, four go clockwise from the top. -/
def expansion? (d : Declaration) : Option (List (String × StyleValue)) :=
  match d.box?, Text.words d.value with
  | some f, [v, h] => some [(f.key .vertical, .ofText v), (f.key .horizontal, .ofText h)]
  | some f, [t, r, b, l] =>
    some [(f.key .top, .ofText t), (f.key .right, .ofText r), (f.key .bottom, .ofText b),
      (f.key .left, .ofText l)]
  | _, _ => none

/-- A whole box is only declared under its own name. -/
theorem IsRead.property_eq_name_iff (h : d.IsRead) {f : BoxFamily} :
    d.property = f.name ↔ d.canonical = f.name := by
  constructor
  · intro hproperty
    rw [canonical, hproperty]
    cases f <;> decide
  · intro hcanonical
    have hmem : Property.normalize d.property ∈ BoxShorthand.inBlocks := by
      rw [← canonical, hcanonical]
      exact f.name_mem_inBlocks
    rw [← Property.eq_of_normalize_mem h.property_tight hmem, ← canonical, hcanonical]

theorem IsRead.hasBlank_iff (h : d.IsRead) :
    Text.hasBlank (Text.trim d.value) = true ↔ 1 < (Text.words d.value).length := by
  rw [Text.trim_of_isTight h.value_tight, Text.length_words,
    Text.one_lt_wordCount_iff h.value_tight, Text.hasBlank]

/-- **Two and four values are expanded**, and nothing else is. -/
theorem IsRead.expandShorthand?_eq (h : d.IsRead) :
    expandShorthand? d.property d.value = d.expansion? := by
  cases hbox : d.box? with
  | none =>
    have hname : Text.trim d.property ∉ BoxShorthand.inBlocks := by
      intro hmem
      rw [Text.trim_of_isTight h.property_tight] at hmem
      obtain ⟨f, hf⟩ := BoxFamily.exists_name_of_mem hmem
      rw [box?, BoxFamily.find?_eq_some_iff.2 (h.property_eq_name_iff.1 hf.symm).symm] at hbox
      simp at hbox
    have hnone : d.expansion? = none := by simp [expansion?, hbox]
    rw [expandShorthand?_of_not_mem hname, hnone]
  | some f =>
    have hname : d.property = f.name :=
      h.property_eq_name_iff.2 (BoxFamily.find?_eq_some_iff.1 hbox).symm
    have hblank := h.hasBlank_iff
    rw [expandShorthand?, Text.trim_of_isTight h.property_tight, hname,
      BoxShorthand.expandAmong?_name, expansion?, hbox]
    rcases hwords : Text.words d.value with _ | ⟨a, _ | ⟨b, _ | ⟨c, _ | ⟨e, _ | ⟨g, rest⟩⟩⟩⟩⟩ <;>
      simp [hwords] at hblank <;> simp [hblank, BoxFamily.expand?]

/-- An expansion names properties of the family whose whole box is declared. -/
theorem key_of_expansion? {entries : List (String × StyleValue)}
    (h : d.expansion? = some entries) :
    ∃ f : BoxFamily, d.canonical = f.name ∧ ∀ e ∈ entries, ∃ part, e.1 = f.key part := by
  unfold expansion? at h
  split at h
  · rename_i f v w hbox hwords
    refine ⟨f, (BoxFamily.find?_eq_some_iff.1 hbox).symm, ?_⟩
    rw [← Option.some.inj h]
    simp
  · rename_i f t r b l hbox hwords
    refine ⟨f, (BoxFamily.find?_eq_some_iff.1 hbox).symm, ?_⟩
    rw [← Option.some.inj h]
    simp
  · simp at h

/-- What a declaration sets is its own property or belongs to the box that it declares. -/
theorem IsRead.mem_keys_write (h : d.IsRead) {k : String} (hk : k ∈ d.write.keys) :
    k = d.canonical ∨
      ∃ (f : BoxFamily) (part : BoxPart), d.canonical = f.name ∧ k = f.key part := by
  rw [write, h.expandShorthand?_eq] at hk
  split at hk
  · exact .inl (by simpa [Write.keys, Write.fixed, Write.evaluated] using hk)
  · split at hk
    · rename_i entries hentries
      obtain ⟨f, hname, hkeys⟩ := key_of_expansion? hentries
      simp only [Write.keys, Write.fixed, Write.evaluated, List.append_nil] at hk
      obtain ⟨e, he, rfl⟩ := List.mem_map.1 hk
      obtain ⟨part, hpart⟩ := hkeys e he
      exact .inr ⟨f, part, hname, hpart⟩
    · exact .inl (by simpa [Write.keys, Write.fixed, Write.evaluated] using hk)

end Declaration

end TemplateStyles
