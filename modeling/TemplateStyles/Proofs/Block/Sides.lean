import TemplateStyles.Proofs.Block.Declarations
/-!
# The two sides of a rule

A rule keeps fixed properties on one side and evaluated ones, in groups, on the other. Every write
leaves the evaluated properties in groups of one (`Ungrouped.apply`), and what a declaration writes
goes to the side where markers are wanted. Main result `sides_ofText`: however a block is written,
each property is on one side only, alone in its group if it is evaluated, and the markers are all
on the evaluated side.
-/
namespace TemplateStyles

/-! ## Markers in a text -/

/-- A marker stands somewhere in a text. -/
def Marker.Within (s : String) : Prop := ∃ ds, IsDigits ds ∧ ofDigits ds <:+: s.toList

theorem Marker.occursIn_iff_within {s : String} : occursIn s = true ↔ Within s :=
  first?_isSome_iff

theorem StyleValue.hasMarker_iff {v : StyleValue} :
    v.hasMarker = true ↔ ∃ s, v = .text s ∧ Marker.Within s := by
  cases v with
  | number x => simp [hasMarker]
  | text s => simp [hasMarker, Marker.occursIn_iff_within]

namespace StyleRule

/-! ## Groups of one -/

/-- Every evaluated property forms a group of its own. -/
def Ungrouped (r : StyleRule) : Prop := ∀ group ∈ r.dynamic, ∃ e, group.entries = [e]

variable {r : StyleRule}

/-- A group of one stays as it is or is left empty and goes. -/
theorem Ungrouped.dropDynamic (h : r.Ungrouped) (k : String) : (r.dropDynamic k).Ungrouped := by
  intro group hgroup
  obtain ⟨hmem, hkept⟩ := List.mem_filter.1 hgroup
  obtain ⟨old, hold, rfl⟩ := List.mem_map.1 hmem
  obtain ⟨e, he⟩ := h old hold
  have herase : (old.erase k).entries = [e].filter (·.1 ≠ k) := by rw [OrderedMap.entries_erase, he]
  by_cases hk : e.1 = k
  · -- the property is the one that is dropped, so nothing is left of its group
    have hnil : (old.erase k).entries = [] := by
      rw [herase, List.filter_cons_of_neg (by simp [hk]), List.filter_nil]
    simp [OrderedMap.isEmpty, hnil] at hkept
  · exact ⟨e, by rw [herase, List.filter_cons_of_pos (by simpa using hk), List.filter_nil]⟩

theorem Ungrouped.putStatic (h : r.Ungrouped) (k : String) (v : StyleValue) :
    (r.putStatic k v).Ungrouped := h.dropDynamic k

theorem Ungrouped.putDynamic (h : r.Ungrouped) (k : String) (v : StyleValue) :
    (r.putDynamic k v).Ungrouped := by
  intro group hgroup
  rcases List.mem_append.1 hgroup with hold | hnew
  · exact h.dropDynamic k group hold
  · exact ⟨(k, v), by rw [List.mem_singleton.1 hnew]; exact OrderedMap.entries_ofList (by simp)⟩

theorem Ungrouped.foldl_putStatic (entries : List (String × StyleValue)) (h : r.Ungrouped) :
    (entries.foldl (fun r e => r.putStatic e.1 e.2) r).Ungrouped := by
  induction entries generalizing r with
  | nil => exact h
  | cons e rest ih => exact ih (h.putStatic e.1 e.2)

/-- Every write keeps the evaluated properties apart. -/
theorem Ungrouped.apply (h : r.Ungrouped) (w : Write) : (r.apply w).Ungrouped := by
  cases w with
  | dynamic key value => exact h.putDynamic key value
  | static key value => exact h.putStatic key value
  | expanded key entries => exact (h.dropDynamic key).foldl_putStatic entries

theorem ofWrites_ungrouped (writes : List Write) : (ofWrites writes).Ungrouped := by
  induction writes using List.reverseRecOn with
  | nil => simp [Ungrouped, ofWrites, empty]
  | append_singleton writes w ih => rw [ofWrites_append_singleton]; exact ih.apply w

theorem mem_dynamicEntries {group : StyleMap} {e : String × StyleValue} (h : group ∈ r.dynamic)
    (he : e ∈ group.entries) : e ∈ r.dynamicEntries := List.mem_flatMap.2 ⟨group, h, he⟩

theorem map_fst_dynamicEntries (r : StyleRule) :
    r.dynamicEntries.map Prod.fst = r.dynamic.flatMap OrderedMap.keys := List.map_flatMap

end StyleRule

namespace Block

/-! ## Markers on the two sides -/

/-- What is evaluated holds a marker. -/
theorem dynamicEntries_hasMarker {css : String} {e : String × StyleValue}
    (h : e ∈ (ofText css).rule.dynamicEntries) : e.2.hasMarker = true := by
  rw [rule_ofText] at h
  obtain ⟨w, hw, hevaluated⟩ := StyleRule.mem_evaluated_of_mem h
  obtain ⟨d, -, rfl⟩ := List.mem_map.1 hw
  exact Declaration.write_evaluated_hasMarker hevaluated

/-- What is fixed holds none. -/
theorem static_hasMarker {css : String} {e : String × StyleValue}
    (h : e ∈ (ofText css).rule.static.entries) : e.2.hasMarker = false := by
  have hmisplaced := List.filter_eq_nil_iff.1 (misplaced_ofText css) e h
  simpa using hmisplaced

/-- **The two sides of a rule are kept apart.** However a block is written, each group of its rule
has one property, which is not fixed as well and whose value is a text with a marker; no two groups
have the same property; and no fixed value is a text with a marker. -/
theorem sides_ofText (css : String) :
    let rule := (ofText css).rule
    (∀ group ∈ rule.dynamic, ∃ property s, group.entries = [(property, .text s)] ∧
      property ∉ rule.static.keys ∧ Marker.Within s) ∧
    (rule.dynamic.flatMap OrderedMap.keys).Nodup ∧
    ∀ v ∈ rule.static.values, ∀ s, v = .text s → ¬ Marker.Within s := by
  intro rule
  have hpartition : rule.Partitioned := partitioned_ofText css
  have hungrouped : rule.Ungrouped := by
    show (ofText css).rule.Ungrouped
    rw [rule_ofText]
    exact StyleRule.ofWrites_ungrouped _
  refine ⟨fun group hgroup => ?_, ?_, ?_⟩
  · obtain ⟨e, he⟩ := hungrouped group hgroup
    have hmem : e ∈ rule.dynamicEntries := StyleRule.mem_dynamicEntries hgroup (by simp [he])
    obtain ⟨s, hs, hwithin⟩ := StyleValue.hasMarker_iff.1 (dynamicEntries_hasMarker hmem)
    refine ⟨e.1, s, by rw [he, ← hs], ?_, hwithin⟩
    exact OrderedMap.get?_eq_none_iff.1 (hpartition.disjoint e hmem)
  · rw [← StyleRule.map_fst_dynamicEntries]
    exact hpartition.nodup
  · intro v hv s hs hwithin
    obtain ⟨e, he, rfl⟩ := List.mem_map.1 hv
    have hmarker : e.2.hasMarker = true := StyleValue.hasMarker_iff.2 ⟨s, hs, hwithin⟩
    rw [static_hasMarker he] at hmarker
    exact absurd hmarker (by simp)

end Block

end TemplateStyles
