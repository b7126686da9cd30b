import TemplateStyles.Proofs.StyleModule.Statistics
/-!
# Which templates are rewritten

A template with instructions is rewritten unless one of three things is wrong with it: a number
without a literal, a blank expression that a property depends on, a blank component. It is kept
character by character otherwise. Main result `compile_rewritten_iff`. An entry of a patch never
names an expression that the template does not have (`expression_lt_of_mem_entries`), so an error
about one is never reported.
-/
namespace TemplateStyles

namespace Template

variable {o : Options} {t : Template} {c : SheetCounter}

/-- Entries are only made for expressions of the template. -/
theorem expression_lt_of_mem_entries {p : PatchBuilder}
    (hp : p ∈ (t.emission c).instructions.patch) {e : PatchEntry} (he : e ∈ p.entries) :
    e.expression < t.expressions.length := by
  have hall : ∀ e ∈ t.patchEntries, e.expression < t.expressions.length := by
    intro e he
    obtain ⟨v, -, hv⟩ := List.mem_filterMap.1 he
    obtain ⟨i, hi, rfl⟩ := Option.map_eq_some_iff.1 hv
    exact StyleValue.expression?_lt hi
  exact forall_patch_iff.2 hall p hp e he

/-- An expression that is there can be evaluated unless it is blank. -/
theorem isEvaluable_iff {expressions : List Expression} {e : PatchEntry}
    (h : e.expression < expressions.length) : Script.IsEvaluable expressions e ↔
      ∀ x, expressions[e.expression]? = some x → Text.isBlankText x.source = false := by
  simp only [Script.IsEvaluable, List.getElem?_eq_getElem h, Option.some.injEq, ne_eq,
    Text.trim_eq_empty_iff, Bool.not_eq_true, exists_eq_left', forall_eq']

theorem exists_callee_iff_tag : (∃ callee, Script.callee o t.tag = .ok callee) ↔
    t.tag = .css ∨ ∃ component, t.tag = .styled component ∧
      Text.isBlankText component = false := by
  rw [Script.exists_callee_iff]
  cases t.tag <;> simp [Text.trim_eq_empty_iff]

theorem code_of_kept (h : (t.compile o c).outcome.isRewritten = false) :
    (t.compile o c).outcome.code = t.literal o.styledName o.cssName := by
  revert h
  rw [compile, outcome]
  dsimp only
  cases Script.replacement o t (t.emission c).instructions with
  | error e => exact fun _ => rfl
  | ok code => simp [Outcome.isRewritten]

/-- A declaration is there just if there is something to declare. -/
theorem isSome_hoisted_iff (h : (t.compile o c).outcome.isRewritten = true) :
    (t.compile o c).outcome.hoisted.isSome = true ↔
      (t.compile o c).instructions.registration.isSome = true := by
  rcases hoisted_of_rewritten h with ⟨hhoisted, hr⟩ | ⟨_, _, hhoisted, hr, -, -⟩
  · rw [hhoisted, hr]
    rfl
  · rw [hhoisted, hr]
    exact iff_of_true rfl rfl

theorem replacement_ne_outOfRange (expression : Nat) (property : String) (count : Nat) :
    Script.replacement o t (t.emission c).instructions ≠
      .error (.outOfRange expression property count) := by
  intro h
  obtain ⟨p, hp, he, rfl, hle⟩ := Script.reports_of_replacement h
  exact absurd (expression_lt_of_mem_entries hp he) (Nat.not_lt.2 hle)

/-- What is reported about a template that is kept is the error of generating its code. -/
theorem mem_notices_keptAsWritten {file : String} {index : Nat} {error : GenerationError}
    (h : .keptAsWritten file index error ∈ t.notices o file index c) :
    Script.replacement o t (t.emission c).instructions = .error error := by
  simp only [notices, Findings.notices, Emission.notices, List.mem_append, List.mem_map,
    reduceCtorEq, and_false, exists_false, false_or] at h
  unfold outcomeNotices at h
  split at h
  · simp at h
  · cases hcode : Script.replacement o t (t.emission c).instructions with
    | ok code => simp [hcode] at h
    | error e => simpa [hcode, eq_comm] using h

/-- **Exactly when a template is rewritten**: if it has instructions, all registered numbers are
finite, the expressions of all patch entries are there and not blank, and it is a css template or
its component is not blank. Then there is a declaration just if there is a sheet. Otherwise the
template is kept as it was written and nothing is declared. No error is about a missing
expression. -/
theorem compile_rewritten_iff (o : Options) (t : Template) (c : SheetCounter) :
    let ct := t.compile o c
    let i := ct.instructions
    (ct.outcome.isRewritten = true ↔ i.isEmpty = false ∧
      (∀ r ∈ i.registration, ∀ e ∈ r.properties.entries, ∀ x, e.2 = .number x →
        x.isFinite = true) ∧
      (∀ p ∈ i.patch, ∀ e ∈ p.entries, ∀ x, t.expressions[e.expression]? = some x →
        Text.isBlankText x.source = false) ∧
      (t.tag = .css ∨ ∃ component, t.tag = .styled component ∧
        Text.isBlankText component = false)) ∧
    (ct.outcome.isRewritten = true →
      (ct.outcome.hoisted.isSome = true ↔ i.registration.isSome = true)) ∧
    (ct.outcome.isRewritten = false →
      ct.outcome.code = t.literal o.styledName o.cssName ∧ ct.outcome.hoisted = none) ∧
    (∀ p ∈ i.patch, ∀ e ∈ p.entries, e.expression < t.expressions.length) ∧
    ∀ expression property count,
      Script.replacement o t i ≠ .error (.outOfRange expression property count) ∧
      ∀ file index, .keptAsWritten file index (.outOfRange expression property count) ∉
        t.notices o file index c := by
  intro ct i
  have hrange : ∀ p ∈ i.patch, ∀ e ∈ p.entries, e.expression < t.expressions.length :=
    fun _ hp _ he => expression_lt_of_mem_entries hp he
  refine ⟨?_, isSome_hoisted_iff, fun h => ⟨code_of_kept h, CompiledTemplate.hoisted_of_kept h⟩,
    hrange, fun expression property count => ⟨replacement_ne_outOfRange expression property count,
      fun file index h => replacement_ne_outOfRange expression property count
        (mem_notices_keptAsWritten h)⟩⟩
  have hevaluable : (∀ p ∈ i.patch, ∀ e ∈ p.entries, Script.IsEvaluable t.expressions e) ↔
      ∀ p ∈ i.patch, ∀ e ∈ p.entries, ∀ x, t.expressions[e.expression]? = some x →
        Text.isBlankText x.source = false :=
    forall₂_congr fun p hp => forall₂_congr fun e he => isEvaluable_iff (hrange p hp e he)
  rw [isRewritten_compile_iff, Script.exists_replacement_iff, ← hevaluable,
    ← exists_callee_iff_tag (o := o), ← Script.exists_callee_iff (o := o)]
  rfl

/-- Two templates that differ in an expression, which is blank in the second. -/
theorem compile_rewritten_iff_blank :
    let tinted : String → Template := fun source =>
      ⟨none, .styled "View", ["flex: 1; color: ", ";"], [⟨source, false⟩]⟩
    let written := (tinted "tint").compile .standard .start
    let kept := (tinted " ").compile .standard .start
    written.outcome.isRewritten = true ∧ written.outcome.hoisted.isSome = true ∧
      kept.outcome.isRewritten = false ∧ kept.outcome.hoisted = none ∧
      kept.outcome.code = "styled(View)\x60flex: 1; color: $\x7b \x7d;\x60" := by
  intro tinted written kept
  have hwritten : written.outcome.isRewritten = true := by decide +kernel
  have hkept : kept.outcome.isRewritten = false := by decide +kernel
  obtain ⟨-, hhoisted, -⟩ := compile_rewritten_iff .standard (tinted "tint") .start
  obtain ⟨-, -, hliteral, -⟩ := compile_rewritten_iff .standard (tinted " ") .start
  refine ⟨hwritten, (hhoisted hwritten).2 (by decide +kernel), hkept, (hliteral hkept).2, ?_⟩
  rw [(hliteral hkept).1]
  decide +kernel

end Template

end TemplateStyles
