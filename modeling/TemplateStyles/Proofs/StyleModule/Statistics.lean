import TemplateStyles.Proofs.Script.Generation
import TemplateStyles.Proofs.Sheet.Emission
import TemplateStyles.Proofs.StyleModule.Scope
import TemplateStyles.StyleModule.Statistics
/-!
# Statistics and scripts

Sheets and properties are counted in the instructions of all templates, also of those that are kept
because no code could be generated for them (`isLost_compile_iff`). Main result `statistics_iff`:
such templates are all that the statistics count and the script does not have. In
`statistics_count_lost`, a sheet is counted that the script does not declare.
-/
namespace TemplateStyles

namespace CompiledTemplate

/-- A template is lost if it is kept although there are instructions for it. -/
def isLost (ct : CompiledTemplate) : Bool := !ct.outcome.isRewritten && !ct.instructions.isEmpty

/-- Without instructions there is nothing to count. -/
theorem counts_of_isEmpty {ct : CompiledTemplate} (h : ct.instructions.isEmpty = true) :
    ct.instructions.registration.isSome = false ∧ ct.staticCount = 0 ∧ ct.dynamicCount = 0 := by
  rw [Instructions.isEmpty, Bool.and_eq_true, Option.isNone_iff_eq_none,
    Option.isNone_iff_eq_none] at h
  rw [staticCount, dynamicCount, h.1, h.2]
  exact ⟨rfl, rfl, rfl⟩

theorem isLost_eq_true_iff {ct : CompiledTemplate} : ct.isLost = true ↔
    ct.outcome.isRewritten = false ∧ ct.instructions.isEmpty = false := by
  simp [isLost]

end CompiledTemplate

/-- The templates of a module that are lost. -/
def StyleModule.lost (m : StyleModule) : List CompiledTemplate := m.templates.filter (·.isLost)

namespace Template

/-- The entries of a template's patch. -/
def patchEntries (t : Template) : List PatchEntry :=
  t.block.rule.evaluated.filterMap (PatchEntry.ofDynamic? t.expressions.length)

/-- The members of the patch in the template's code. -/
def patchMembers (t : Template) (ct : CompiledTemplate) : List String :=
  if ct.outcome.isRewritten then
    (ct.instructions.patch.map (Script.patchMembers t.expressions)).getD []
  else []

/-- The code of a template is a call with its sheet, if it has one, and with a patch of the written
members, if it has one. -/
def HasCode (o : Options) (t : Template) (ct : CompiledTemplate) : Prop :=
  ∃ callee, Script.callee o t.tag = .ok callee ∧ ct.outcome.code = Script.call callee
    ((ct.instructions.registration.map Script.sheetMembers).getD [] ++
      Script.laterMembers o (ct.instructions.patch.map fun _ =>
        Script.patchText patchParameter (t.patchMembers ct)))

/-- What keeps code from being generated: a blank component, a property that takes its value from
a blank expression, or a fixed number that is not finite. -/
def IsDefective (t : Template) : Prop :=
  (∃ component, t.tag = .styled component ∧ Text.trim component = "") ∨
    (∃ e ∈ t.block.rule.evaluated, ∃ i x, e.2.expression? t.expressions.length = some i ∧
      t.expressions[i]? = some x ∧ Text.trim x.source = "") ∨
    ∃ e ∈ t.block.rule.registered.entries, ∃ x, e.2 = .number x ∧ x.isFinite = false

/-! ## One template -/

variable {o : Options} {t : Template} {c : SheetCounter}

theorem outcome_eq_rewritten_iff {i : Instructions} {code : Replacement} :
    t.outcome o i = .rewritten code ↔ Script.replacement o t i = .ok code := by
  unfold outcome
  cases Script.replacement o t i <;> simp

theorem isRewritten_compile_iff : (t.compile o c).outcome.isRewritten = true ↔
    ∃ code, Script.replacement o t (t.emission c).instructions = .ok code := by
  rw [compile]
  dsimp only
  unfold outcome
  cases Script.replacement o t (t.emission c).instructions <;> simp [Outcome.isRewritten]

theorem registration_eq_some_iff {r : Registration} :
    (t.emission c).instructions.registration = some r ↔
      t.block.rule.registered.isEmpty = false ∧ r = ⟨c.id, baseKey, t.block.rule.registered⟩ := by
  rw [instructions_emission, registration?]
  cases t.block.rule.registered.isEmpty <;> simp [eq_comm]

theorem patchBuilder?_eq_some_iff {entries : List PatchEntry} {p : PatchBuilder} :
    patchBuilder? entries = some p ↔ entries ≠ [] ∧ p = ⟨patchParameter, entries⟩ := by
  cases entries <;> simp [patchBuilder?, eq_comm]

theorem patch_eq_some_iff {p : PatchBuilder} : (t.emission c).instructions.patch = some p ↔
    t.patchEntries ≠ [] ∧ p = ⟨patchParameter, t.patchEntries⟩ := by
  rw [emission, emit, patchBuilder?_eq_some_iff, patchEntries]

theorem forall_registration_iff {P : String × StyleValue → Prop} :
    (∀ r ∈ (t.emission c).instructions.registration, ∀ e ∈ r.properties.entries, P e) ↔
      ∀ e ∈ t.block.rule.registered.entries, P e := by
  simp only [Option.mem_def, registration_eq_some_iff]
  constructor
  · intro hall e he
    have hempty : t.block.rule.registered.isEmpty = false := by
      rw [OrderedMap.isEmpty, List.isEmpty_eq_false_iff]
      exact List.ne_nil_of_mem he
    exact hall _ ⟨hempty, rfl⟩ e he
  · rintro hall r ⟨-, rfl⟩
    exact hall

theorem forall_patch_iff {P : PatchEntry → Prop} :
    (∀ p ∈ (t.emission c).instructions.patch, ∀ e ∈ p.entries, P e) ↔
      ∀ e ∈ t.patchEntries, P e := by
  simp only [Option.mem_def, patch_eq_some_iff]
  constructor
  · intro hall e he
    have hentries := hall _ ⟨List.ne_nil_of_mem he, rfl⟩
    dsimp only at hentries
    exact hentries e he
  · rintro hall p ⟨-, hp⟩
    rw [hp]
    dsimp only
    exact hall

/-- An entry of a patch names an expression of the template. -/
theorem forall_isEvaluable_iff :
    (∀ e ∈ t.patchEntries, Script.IsEvaluable t.expressions e) ↔
      ∀ e ∈ t.block.rule.evaluated, ∀ i x, e.2.expression? t.expressions.length = some i →
        t.expressions[i]? = some x → Text.trim x.source ≠ "" := by
  constructor
  · intro hall e he i x hi hx
    obtain ⟨x', hx', hsource⟩ := hall ⟨e.1, i⟩
      (List.mem_filterMap.2 ⟨e, he, by rw [PatchEntry.ofDynamic?, hi, Option.map_some]⟩)
    rw [hx] at hx'
    rwa [Option.some.inj hx']
  · intro hall entry hentry
    obtain ⟨e, he, hentry⟩ := List.mem_filterMap.1 hentry
    obtain ⟨i, hi, rfl⟩ := Option.map_eq_some_iff.1 hentry
    have hx := List.getElem?_eq_getElem (StyleValue.expression?_lt hi)
    exact ⟨_, hx, hall e he i _ hi hx⟩

theorem not_isDefective_iff : ¬ t.IsDefective ↔
    (∀ e ∈ t.block.rule.registered.entries, Script.HasLiteral e.2) ∧
      (∀ e ∈ t.block.rule.evaluated, ∀ i x, e.2.expression? t.expressions.length = some i →
        t.expressions[i]? = some x → Text.trim x.source ≠ "") ∧
      ∀ component, t.tag = .styled component → Text.trim component ≠ "" := by
  simp only [IsDefective, Script.HasLiteral, not_or, not_exists, not_and, Bool.not_eq_false, ne_eq]
  exact ⟨fun h => ⟨h.2.2, h.2.1, h.1⟩, fun h => ⟨h.2.2, h.2.1, h.1⟩⟩

/-- **Why templates are lost.** -/
theorem isLost_compile_iff : (t.compile o c).isLost = true ↔
    (t.emission .start).instructions.isEmpty = false ∧ t.IsDefective := by
  have hempty : (t.emission c).instructions.isEmpty = (t.emission .start).instructions.isEmpty := by
    rw [instructions_emission, t.instructions_emission .start]
    cases h : t.block.rule.registered.isEmpty <;>
      simp [Instructions.isEmpty, registration?, h]
  rw [CompiledTemplate.isLost_eq_true_iff, and_comm,
    ← Bool.not_eq_true (Outcome.isRewritten _), isRewritten_compile_iff,
    Script.exists_replacement_iff, forall_registration_iff, forall_patch_iff,
    forall_isEvaluable_iff, ← not_isDefective_iff, compile]
  dsimp only
  rw [hempty]
  refine and_congr_right fun hsome => ?_
  rw [hsome, and_iff_right rfl, not_not]

/-- A lost template is counted. -/
theorem counted_of_isLost (h : (t.compile o c).isLost = true) :
    (t.compile o c).instructions.registration.isSome = true ∨
      (t.compile o c).dynamicCount ≠ 0 := by
  obtain ⟨-, hempty⟩ := CompiledTemplate.isLost_eq_true_iff.1 h
  rw [compile] at hempty
  rw [CompiledTemplate.dynamicCount, compile]
  dsimp only at hempty ⊢
  cases hp : (t.emission c).instructions.patch with
  | none => simpa [Instructions.isEmpty, hp] using hempty
  | some p =>
    obtain ⟨hne, rfl⟩ := patch_eq_some_iff.1 hp
    exact .inr (by simpa using hne)

variable (h : (t.compile o c).outcome.isRewritten = true)
include h

/-- The sheet of a rewritten template is declared with all its properties. -/
theorem hoisted_of_rewritten :
    ((t.compile o c).outcome.hoisted = none ∧ (t.compile o c).instructions.registration = none) ∨
      ∃ declaration r, (t.compile o c).outcome.hoisted = some declaration ∧
        (t.compile o c).instructions.registration = some r ∧
        Script.sheetDeclaration o r = .ok declaration ∧
        Script.sheetSize o declaration = r.properties.size := by
  obtain ⟨code, hcode⟩ := isRewritten_compile_iff.1 h
  obtain ⟨-, hoisted, _, _, hhoisted, -, -, rfl⟩ := Script.replacement_eq_ok_iff.1 hcode
  rw [compile]
  dsimp only
  rw [outcome_eq_rewritten_iff.2 hcode, Outcome.hoisted]
  dsimp only
  cases hr : (t.emission c).instructions.registration with
  | none =>
    rw [hr] at hhoisted
    exact .inl ⟨(Except.ok.inj hhoisted).symm, rfl⟩
  | some r =>
    rw [hr] at hhoisted
    obtain ⟨declaration, hdeclaration, rfl⟩ := Script.mapM_some_eq_ok_iff.1 hhoisted
    obtain ⟨-, rfl⟩ := registration_eq_some_iff.1 hr
    exact .inr ⟨declaration, _, rfl, rfl, hdeclaration,
      Script.sheetSize_declaration c.isIdentifier_id rfl hdeclaration⟩

/-- The patch of a rewritten template has a member for each of its entries. -/
theorem length_patchMembers :
    (t.patchMembers (t.compile o c)).length = (t.compile o c).dynamicCount := by
  rw [patchMembers, if_pos h, CompiledTemplate.dynamicCount]
  obtain ⟨-, -, hevaluable, -⟩ := Script.exists_replacement_iff.1 (isRewritten_compile_iff.1 h)
  rw [compile]
  dsimp only
  cases hp : (t.emission c).instructions.patch with
  | none => rfl
  | some p => exact Script.length_patchMembers (hevaluable p hp)

theorem hasCode_of_rewritten : t.HasCode o (t.compile o c) := by
  rw [HasCode, patchMembers, if_pos h]
  obtain ⟨code, hcode⟩ := isRewritten_compile_iff.1 h
  obtain ⟨-, _, patch, callee, -, hpatch, hcallee, rfl⟩ := Script.replacement_eq_ok_iff.1 hcode
  have hwritten : patch = (t.emission c).instructions.patch.map fun _ =>
      Script.patchText patchParameter
        (((t.emission c).instructions.patch.map (Script.patchMembers t.expressions)).getD []) := by
    cases hp : (t.emission c).instructions.patch with
    | none =>
      rw [hp] at hpatch
      exact (Except.ok.inj hpatch).symm
    | some p =>
      rw [hp] at hpatch
      obtain ⟨_, hfunction, rfl⟩ := Script.mapM_some_eq_ok_iff.1 hpatch
      obtain ⟨-, rfl⟩ := Script.patchFunction_eq_ok_iff.1 hfunction
      rw [Option.map_some, Option.map_some, Option.getD_some, (patch_eq_some_iff.1 hp).2]
  refine ⟨callee, hcallee, ?_⟩
  rw [compile]
  dsimp only
  rw [outcome_eq_rewritten_iff.2 hcode, Outcome.code, hwritten]

omit h in
/-- What is counted for a template is written or lost. -/
theorem counts_compile (o : Options) (t : Template) (c : SheetCounter) :
    (if (t.compile o c).instructions.registration.isSome then 1 else 0) =
        (t.compile o c).outcome.hoisted.toList.length +
          (if (t.compile o c).isLost then
            if (t.compile o c).instructions.registration.isSome then 1 else 0
          else 0) ∧
      (t.compile o c).staticCount =
        ((t.compile o c).outcome.hoisted.toList.map (Script.sheetSize o)).sum +
          (if (t.compile o c).isLost then (t.compile o c).staticCount else 0) ∧
      (t.compile o c).dynamicCount = (t.patchMembers (t.compile o c)).length +
        (if (t.compile o c).isLost then (t.compile o c).dynamicCount else 0) := by
  cases hrewritten : (t.compile o c).outcome.isRewritten with
  | true =>
    have hkept : (t.compile o c).isLost = false := by simp [CompiledTemplate.isLost, hrewritten]
    rw [hkept, length_patchMembers hrewritten]
    rcases hoisted_of_rewritten hrewritten with
      ⟨hhoisted, hnone⟩ | ⟨declaration, r, hhoisted, hr, -, hsize⟩
    · have hcount : (t.compile o c).staticCount = 0 := by
        rw [CompiledTemplate.staticCount, hnone]
        rfl
      simp [hhoisted, hnone, hcount]
    · have hcount : (t.compile o c).staticCount = r.properties.size := by
        rw [CompiledTemplate.staticCount, hr]
        rfl
      simp [hhoisted, hr, hcount, hsize]
  | false =>
    -- nothing is written, so all that the instructions hold is lost
    have hmembers : t.patchMembers (t.compile o c) = [] := by simp [patchMembers, hrewritten]
    rw [CompiledTemplate.hoisted_of_kept hrewritten, hmembers]
    cases hempty : (t.compile o c).instructions.isEmpty with
    | true =>
      obtain ⟨hsheet, hstatic, hdynamic⟩ := CompiledTemplate.counts_of_isEmpty hempty
      simp [hsheet, hstatic, hdynamic]
    | false =>
      have hlost : (t.compile o c).isLost = true :=
        CompiledTemplate.isLost_eq_true_iff.2 ⟨hrewritten, hempty⟩
      simp [hlost]

end Template

/-! ## All templates of a module -/

theorem StyleModule.total_eq_sum (m : StyleModule) (count : CompiledTemplate → Nat) :
    m.total count = (m.templates.map count).sum := by
  rw [total, List.sum_eq_foldr, List.foldr_map]

theorem StyleModule.rewritten_add_kept (m : StyleModule) :
    m.statistics.rewritten + m.statistics.kept = m.templates.length := by
  rw [List.length_eq_countP_add_countP fun ct : CompiledTemplate => ct.outcome.isRewritten]
  refine congrArg _ (List.countP_congr fun ct _ => ?_)
  simp

namespace Source

variable (o : Options)

/-- **What is counted is written or lost.** -/
theorem counts_compileFrom (c : SheetCounter) (ts : List Template) :
    let cts := compileFrom o c ts
    let declarations := cts.filterMap (·.outcome.hoisted)
    let lost := cts.filter (·.isLost)
    cts.countP (·.instructions.registration.isSome) =
        declarations.length + lost.countP (·.instructions.registration.isSome) ∧
      (cts.map (·.staticCount)).sum =
        (declarations.map (Script.sheetSize o)).sum + (lost.map (·.staticCount)).sum ∧
      (cts.map (·.dynamicCount)).sum =
        (List.zipWith Template.patchMembers ts cts).flatten.length +
          (lost.map (·.dynamicCount)).sum := by
  induction ts generalizing c with
  | nil => exact ⟨rfl, rfl, rfl⟩
  | cons t ts ih =>
    obtain ⟨hsheets, hstatic, hdynamic⟩ := ih (t.emission c).counter
    obtain ⟨hsheet, hstatic', hdynamic'⟩ := t.counts_compile o c
    intro cts declarations lost
    simp only [cts, declarations, lost, compileFrom, List.filterMap_eq_flatMap_toList,
      List.flatMap_cons, List.length_append, List.map_append, List.sum_append, List.countP_cons,
      List.filter_cons, List.map_cons, List.sum_cons, List.zipWith_cons_cons,
      List.flatten_cons] at hsheets hstatic hdynamic ⊢
    cases hlost : (t.compile o c).isLost with
    | true =>
      simp only [hlost, if_true, List.countP_cons, List.map_cons, List.sum_cons]
        at hsheet hstatic' hdynamic' ⊢
      omega
    | false =>
      simp only [hlost, Bool.false_eq_true, if_false] at hsheet hstatic' hdynamic' ⊢
      omega

variable (file : String) (s : Source)

/-- What the statistics count is written or lost. -/
theorem counts_compile :
    let m := s.compile o file
    let n := m.statistics
    let members := (List.zipWith Template.patchMembers s.templates m.templates).flatten
    n.sheets = m.hoisted.length + m.lost.countP (·.instructions.registration.isSome) ∧
      n.static = (m.hoisted.map (Script.sheetSize o)).sum + (m.lost.map (·.staticCount)).sum ∧
      n.dynamic = members.length + (m.lost.map (·.dynamicCount)).sum := by
  intro m n members
  obtain ⟨hsheets, hstatic, hdynamic⟩ := counts_compileFrom o .start s.templates
  exact ⟨hsheets, (m.total_eq_sum _).trans hstatic, (m.total_eq_sum _).trans hdynamic⟩

variable {o}

theorem lost_eq_nil_iff : (s.compile o file).lost = [] ↔
    ∀ t ∈ s.templates, t.IsDefective → (t.emission .start).instructions.isEmpty = true := by
  have hany : (s.compile o file).templates.any (·.isLost) = true ↔
      ∃ t ∈ s.templates, (t.emission .start).instructions.isEmpty = false ∧ t.IsDefective :=
    any_compileFrom (p := fun ct => ct.isLost) (fun _ _ => Template.isLost_compile_iff) .start
      s.templates
  rw [StyleModule.lost, List.filter_eq_nil_iff]
  constructor
  · intro hnone t ht hdefective
    by_contra hempty
    obtain ⟨ct, hct, hlost⟩ := List.any_eq_true.1
      (hany.2 ⟨t, ht, Bool.eq_false_iff.2 hempty, hdefective⟩)
    exact hnone ct hct hlost
  · intro hsound ct hct hlost
    obtain ⟨t, ht, hempty, hdefective⟩ := hany.1 (List.any_eq_true.2 ⟨ct, hct, hlost⟩)
    rw [hsound t ht hdefective] at hempty
    exact absurd hempty (by simp)

theorem lost_eq_nil_of_counts
    (hsheets : (s.compile o file).lost.countP (·.instructions.registration.isSome) = 0)
    (hdynamic : ((s.compile o file).lost.map (·.dynamicCount)).sum = 0) :
    (s.compile o file).lost = [] := by
  refine List.eq_nil_iff_forall_not_mem.2 fun ct hct => ?_
  have hlost := (List.mem_filter.1 hct).2
  obtain ⟨t, c, rfl⟩ := exists_compile_of_mem (List.mem_filter.1 hct).1
  rcases Template.counted_of_isLost hlost with hsheet | hpatch
  · exact List.countP_eq_zero.1 hsheets _ hct hsheet
  · exact hpatch (List.sum_eq_zero_iff_forall_eq_nat.1 hdynamic _ (List.mem_map_of_mem hct))

theorem forall₂_compileFrom {R : Template → CompiledTemplate → Prop}
    (h : ∀ (t : Template) (c : SheetCounter), R t (t.compile o c)) (c : SheetCounter)
    (ts : List Template) : List.Forall₂ R ts (compileFrom o c ts) := by
  induction ts generalizing c with
  | nil => exact .nil
  | cons t ts ih => exact .cons (h t c) (ih _)

theorem exists_sheetDeclaration_of_mem {declaration : String}
    (h : declaration ∈ (s.compile o file).hoisted) :
    ∃ r, Script.sheetDeclaration o r = .ok declaration ∧
      Script.sheetSize o declaration = r.properties.size := by
  obtain ⟨ct, hct, hhoisted⟩ := List.mem_filterMap.1 h
  obtain ⟨t, c, rfl⟩ := exists_compile_of_mem hct
  cases hrewritten : (t.compile o c).outcome.isRewritten with
  | false => simp [CompiledTemplate.hoisted_of_kept hrewritten] at hhoisted
  | true =>
    rcases Template.hoisted_of_rewritten hrewritten with
      ⟨hnone, -⟩ | ⟨declaration', r, hhoisted', -, hdeclaration, hsize⟩
    · simp [hnone] at hhoisted
    · obtain rfl := Option.some.inj (hhoisted.symm.trans hhoisted')
      exact ⟨r, hdeclaration, hsize⟩

/-- **How far statistics agree with the script.** Each template is counted as rewritten or as kept.
The declarations show how many properties their sheets have, and the code of each rewritten template
has its sheet and the written members of its patch. What is counted beyond these belongs to lost
templates. So the numbers agree just if no template that has instructions is defective. -/
theorem statistics_iff (o : Options) (file : String) (s : Source) :
    let m := s.compile o file
    let n := m.statistics
    let members := (List.zipWith Template.patchMembers s.templates m.templates).flatten
    n.templates = s.templates.length ∧ n.rewritten + n.kept = s.templates.length ∧
      (∀ declaration ∈ m.hoisted, ∃ r, Script.sheetDeclaration o r = .ok declaration ∧
        Script.sheetSize o declaration = r.properties.size) ∧
      List.Forall₂ (fun t ct => ct.outcome.isRewritten = true → t.HasCode o ct)
        s.templates m.templates ∧
      (n.sheets = m.hoisted.length + m.lost.countP (·.instructions.registration.isSome) ∧
        n.static = (m.hoisted.map (Script.sheetSize o)).sum + (m.lost.map (·.staticCount)).sum ∧
        n.dynamic = members.length + (m.lost.map (·.dynamicCount)).sum) ∧
      (n.sheets = m.hoisted.length ∧ n.static = (m.hoisted.map (Script.sheetSize o)).sum ∧
          n.dynamic = members.length ↔
        ∀ t ∈ s.templates, t.IsDefective → (t.emission .start).instructions.isEmpty = true) := by
  intro m n members
  have hlength : m.templates.length = s.templates.length := length_compileFrom _ _
  obtain ⟨hsheets, hstatic, hdynamic⟩ := s.counts_compile o file
  refine ⟨hlength, hlength ▸ m.rewritten_add_kept, fun _ => s.exists_sheetDeclaration_of_mem file,
    forall₂_compileFrom (fun _ _ => Template.hasCode_of_rewritten) .start s.templates,
    ⟨hsheets, hstatic, hdynamic⟩, ?_⟩
  rw [← lost_eq_nil_iff file s]
  constructor
  · rintro ⟨hsheets', -, hdynamic'⟩
    rw [hsheets', Nat.left_eq_add] at hsheets
    rw [hdynamic', Nat.left_eq_add] at hdynamic
    exact lost_eq_nil_of_counts file s hsheets hdynamic
  · intro hnil
    rw [hnil] at hsheets hstatic hdynamic
    exact ⟨hsheets, hstatic, hdynamic⟩

/-- Nothing is generated for a blank component, and a sheet with one property and a patch with one
entry are counted. -/
theorem statistics_count_lost :
    let s : Source :=
      ⟨[⟨some "Card", .styled " ", ["flex: 1; color: ", ";"], [⟨"tint", false⟩]⟩]⟩
    let m := s.compile .standard "card.json"
    m.hoisted = [] ∧ List.zipWith Template.patchMembers s.templates m.templates = [[]] ∧
      m.statistics = ⟨1, 0, 1, 1, 1, 1, 0⟩ := by
  decide +kernel

end Source

end TemplateStyles
