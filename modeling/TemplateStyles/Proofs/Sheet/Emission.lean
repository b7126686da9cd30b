import TemplateStyles.Proofs.Block.Sides
import TemplateStyles.Render.Metadata
import TemplateStyles.Sheet.Emission
/-!
# The metadata of a rule

A rule in which no fixed value holds a marker is registered as it stands
(`styles_ofInstructions_emit`), and its patch gives each evaluated property the value of the
interpolation that the property's marker names (`patch_ofInstructions_emit`). All rules that are
read from blocks are of this kind: `relocate_ofPieces`.
-/
namespace TemplateStyles

/-! ## Expressions of values -/

theorem StyleValue.expression?_ofText {s : String} (h : Marker.occursIn s = true) (count : Nat) :
    (ofText s).expression? count = (Marker.index? s).filter (· < count) := by
  have hfirst : (Marker.first? (Text.trimChars s.toList)).isSome = true := by
    rw [Marker.first?_trimChars]
    exact h
  have hindex : Marker.index? (String.ofList (Marker.dropUnit (Text.trimChars s.toList))) =
      Marker.index? s := by
    refine Marker.index?_eq_of_first? ?_
    rw [String.toList_ofList, Marker.first?_dropUnit, Marker.first?_trimChars]
  rw [expression?, ofText, ofTrimmed, if_pos hfirst, asText?, Option.bind_some, hindex]

/-- The interpolation that a value takes its value from. -/
def StyleValue.source? (values : List Interpolation) (v : StyleValue) : Option Interpolation :=
  (v.expression? values.length).bind (values[·]?)

theorem StyleValue.expression?_lt {v : StyleValue} {count i : Nat}
    (h : v.expression? count = some i) : i < count := by
  unfold expression? at h
  simpa using (Option.filter_eq_some_iff.1 h).2

theorem StyleValue.source?_eq_none_iff {values : List Interpolation} {v : StyleValue} :
    v.source? values = none ↔ v.expression? values.length = none := by
  unfold source?
  cases h : v.expression? values.length with
  | none => simp
  | some i => simpa using expression?_lt h

namespace StyleRule

/-! ## From a rule to instructions -/

variable {rule : StyleRule}

theorem registered_of_misplaced (h : rule.misplaced = []) : rule.registered = rule.static := by
  apply OrderedMap.ext_entries
  refine List.filter_eq_self.2 fun e he => ?_
  have hmarker := List.filter_eq_nil_iff.1 h e he
  simpa using hmarker

theorem registration_emit (h : rule.misplaced = []) (count : Nat) (c : SheetCounter) :
    (emit rule count c).instructions.registration = registration? rule.static c := by
  rw [← registered_of_misplaced h]; rfl

theorem evaluated_of_misplaced (h : rule.misplaced = []) :
    rule.evaluated = rule.dynamicEntries := by
  rw [evaluated, h, List.nil_append]

/-- The interpolations of the evaluated properties. -/
def routes (rule : StyleRule) (values : List Interpolation) : List (String × Interpolation) :=
  rule.dynamicEntries.filterMap fun e => (e.2.source? values).map (e.1, ·)

theorem find?_routes (h : (rule.dynamicEntries.map Prod.fst).Nodup) (values : List Interpolation)
    (k : String) : Entries.find? k (rule.routes values) =
      (Entries.find? k rule.dynamicEntries).bind (StyleValue.source? values) := by
  rw [routes]
  exact Entries.find?_filterMap_snd (StyleValue.source? values) k h

theorem map_fst_routes_sublist (rule : StyleRule) (values : List Interpolation) :
    ((rule.routes values).map Prod.fst).Sublist (rule.dynamicEntries.map Prod.fst) := by
  unfold routes
  induction rule.dynamicEntries with
  | nil => exact List.Sublist.refl _
  | cons e rest ih =>
    cases hv : e.2.source? values with
    | none =>
      rw [List.filterMap_cons, hv]
      exact ih.cons e.1
    | some v =>
      rw [List.filterMap_cons, hv]
      exact ih.cons_cons e.1

theorem routes_eq_nil_iff {values : List Interpolation} : rule.routes values = [] ↔
    rule.dynamicEntries.filterMap (PatchEntry.ofDynamic? values.length) = [] := by
  simp only [routes, List.filterMap_eq_nil_iff, Option.map_eq_none_iff, PatchEntry.ofDynamic?,
    StyleValue.source?_eq_none_iff]

/-- If every evaluated property has an interpolation, none is left out. -/
theorem map_fst_routes {values : List Interpolation}
    (h : ∀ e ∈ rule.dynamicEntries, (e.2.source? values).isSome) :
    (rule.routes values).map Prod.fst = rule.dynamicEntries.map Prod.fst := by
  unfold routes
  revert h
  induction rule.dynamicEntries with
  | nil => intro _; rfl
  | cons e rest ih =>
    intro h
    obtain ⟨v, hv⟩ := Option.isSome_iff_exists.1 (h e (List.mem_cons_self ..))
    rw [List.filterMap_cons, hv, List.map_cons, ← ih fun e he => h e (List.mem_cons_of_mem _ he)]
    rfl

/-- The evaluated properties with their values for some props. -/
def patch (rule : StyleRule) (values : List Interpolation) (props : Props) : StyleObject :=
  .ofList ((rule.routes values).map fun e => (e.1, e.2.evaluate props))

theorem entries_patch (h : rule.Partitioned) (values : List Interpolation) (props : Props) :
    (rule.patch values props).entries =
      (rule.routes values).map fun e => (e.1, e.2.evaluate props) := by
  refine OrderedMap.entries_ofList ?_
  rw [List.map_map, Function.comp_def]
  exact (rule.map_fst_routes_sublist values).nodup h.nodup

theorem keys_patch (h : rule.Partitioned) (values : List Interpolation) (props : Props) :
    (rule.patch values props).keys = (rule.routes values).map Prod.fst := by
  rw [OrderedMap.keys, entries_patch h, List.map_map, Function.comp_def]

/-- The value of a property is that of the interpolation that its marker names. -/
theorem get?_patch (h : rule.Partitioned) (values : List Interpolation) (props : Props)
    (k : String) : (rule.patch values props).get? k =
      ((Entries.find? k rule.dynamicEntries).bind (StyleValue.source? values)).map
        (·.evaluate props) := by
  rw [OrderedMap.get?, entries_patch h, ← find?_routes h.nodup]
  exact Entries.find?_map_snd (fun i : Interpolation => i.evaluate props) k _

/-- Such a rule is emitted part by part: nothing fixed has to be evaluated. -/
theorem emit_of_misplaced (h : rule.misplaced = []) (count : Nat) (c : SheetCounter) :
    emit rule count c =
      ⟨⟨registration? rule.static c,
          patchBuilder? (rule.dynamicEntries.filterMap (PatchEntry.ofDynamic? count))⟩,
        if rule.static.isEmpty then c else c.next,
        rule.dynamicEntries.filter fun e => (PatchEntry.ofDynamic? count e).isNone⟩ := by
  rw [emit, registered_of_misplaced h, evaluated_of_misplaced h]

end StyleRule

namespace Block

/-- **There is never anything to relocate.** When the last declaration of a block has been read, no
fixed value is a text with a marker. So relocating leaves the block as it is and finds nothing, and
when the rule of the block is emitted, the sheet has all of its fixed properties and the patch is
made of its evaluated ones only. -/
theorem relocate_ofPieces (css : String) :
    let before := ofPieces (pieces css)
    (∀ v ∈ before.rule.static.values, ∀ s, v = .text s → ¬ Marker.Within s) ∧
    before.relocate = before ∧ (ofText css).findings.relocated = [] ∧
    ∀ (count : Nat) (c : SheetCounter),
      let rule := (ofText css).rule
      emit rule count c =
        ⟨⟨registration? rule.static c,
            patchBuilder? (rule.dynamicEntries.filterMap (PatchEntry.ofDynamic? count))⟩,
          if rule.static.isEmpty then c else c.next,
          rule.dynamicEntries.filter fun e => (PatchEntry.ofDynamic? count e).isNone⟩ := by
  intro before
  have hmisplaced : before.rule.misplaced = [] := misplaced_ofPieces (pieces css)
  refine ⟨fun v hv s hs hwithin => ?_, relocate_eq_self hmisplaced, ?_, fun count c => ?_⟩
  · obtain ⟨e, he, rfl⟩ := List.mem_map.1 hv
    have hmarker : e.2.hasMarker = true := StyleValue.hasMarker_iff.2 ⟨s, hs, hwithin⟩
    exact List.filter_eq_nil_iff.1 hmisplaced e he hmarker
  · rw [findings_ofText]
  · exact StyleRule.emit_of_misplaced (misplaced_ofText css) count c

end Block

namespace Metadata

/-! ## From instructions to metadata -/

variable {rule : StyleRule} {values : List Interpolation} {c : SheetCounter} {r : SheetRegistry}

theorem patch_ofInstructions (i : Instructions) (values : List Interpolation) (r : SheetRegistry) :
    (ofInstructions i values r).1.patch = i.patch.map (·.function values) := by
  unfold ofInstructions
  cases i.registration <;> rfl

/-- The patch of a rule evaluates the interpolations of its properties. -/
theorem patch_ofInstructions_emit (h : rule.misplaced = []) :
    (ofInstructions (emit rule values.length c).instructions values r).1.patch =
      if rule.routes values = [] then none else some fun p => some (rule.patch values p) := by
  have hpatch : (emit rule values.length c).instructions.patch =
      patchBuilder? (rule.evaluated.filterMap (PatchEntry.ofDynamic? values.length)) := rfl
  rw [patch_ofInstructions, hpatch, StyleRule.evaluated_of_misplaced h, patchBuilder?]
  by_cases hnil : rule.routes values = []
  · rw [if_pos hnil, StyleRule.routes_eq_nil_iff.1 hnil]
    rfl
  · have hsome : (rule.dynamicEntries.filterMap
        (PatchEntry.ofDynamic? values.length)).isEmpty = false := by
      simpa using fun h => hnil (StyleRule.routes_eq_nil_iff.2 (List.filterMap_eq_nil_iff.2 h))
    rw [if_neg hnil, hsome]
    simp only [Bool.false_eq_true, if_false, Option.map_some, Option.some.injEq]
    funext p
    rw [PatchBuilder.function, StyleRule.patch, StyleRule.routes, List.filterMap_filterMap,
      List.map_filterMap]
    congr 2
    refine List.filterMap_congr fun e _ => ?_
    rw [PatchEntry.ofDynamic?, StyleValue.source?]
    cases e.2.expression? values.length with
    | none => rfl
    | some i => cases hv : values[i]? <;> simp [hv]

/-- The fixed properties of a rule are registered, unless there are none. -/
theorem styles_ofInstructions_emit (h : rule.misplaced = []) :
    (ofInstructions (emit rule values.length c).instructions values r).2.styles =
      r.styles ++ if rule.static.isEmpty then [] else [StyleMap.toJson rule.static] := by
  rw [ofInstructions, StyleRule.registration_emit h, registration?]
  by_cases hempty : rule.static.isEmpty = true
  · simp [hempty]
  · simp only [hempty]
    rfl

/-- The style list of a rule names the style that was registered for it. -/
theorem staticStyles_ofInstructions_emit (h : rule.misplaced = []) :
    (ofInstructions (emit rule values.length c).instructions values r).1.staticStyles.getD [] =
      if rule.static.isEmpty then [] else [.registered (r.size + 1)] := by
  rw [ofInstructions, StyleRule.registration_emit h, registration?]
  by_cases hempty : rule.static.isEmpty = true
  · simp [hempty, staticStyles]
  · simp only [hempty]
    rfl

end Metadata

end TemplateStyles
