import TemplateStyles.Proofs.Script.StyleObject
/-!
# When code is generated

Instructions for which there is something to do are turned into code, unless a number of the sheet
is not finite, an entry of the patch has no expression or a blank one, or the component is blank.
Main result `exists_replacement_iff`. The patch in generated code has one member for each of its
entries (`patchFunction_eq_ok_iff`). An error names what is wrong (`reports_of_replacement`).
-/
namespace TemplateStyles

/-- What is wrong with a template and its instructions where an error is reported. -/
def GenerationError.Reports (t : Template) (i : Instructions) : GenerationError → Prop
  | nothingToDo => i.isEmpty = true
  | outOfRange expression property count => ∃ p ∈ i.patch, ⟨property, expression⟩ ∈ p.entries ∧
    count = t.expressions.length ∧ count ≤ expression
  | blankExpression expression property => ∃ p ∈ i.patch, ⟨property, expression⟩ ∈ p.entries ∧
    ∃ x, t.expressions[expression]? = some x ∧ Text.trim x.source = ""
  | noLiteral property value => ∃ r ∈ i.registration,
    (property, .number value) ∈ r.properties.entries ∧ value.isFinite = false
  | blankComponent => ∃ component, t.tag = .styled component ∧ Text.trim component = ""

namespace Script

variable {o : Options} {t : Template}

/-- The value has a literal in scripts. -/
def HasLiteral (v : StyleValue) : Prop := ∀ x, v = .number x → x.isFinite = true

theorem exists_styleMember_iff {e : String × StyleValue} :
    (∃ member, styleMember e = .ok member) ↔ HasLiteral e.2 := by
  obtain ⟨property, v⟩ := e
  cases v with
  | text s => exact iff_of_true ⟨_, rfl⟩ (by simp [HasLiteral])
  | number x =>
    have hnumber : HasLiteral (.number x) ↔ x.isFinite = true := by simp [HasLiteral]
    rw [hnumber, styleMember, styleLiteral]
    cases x.isFinite with
    | true => exact iff_of_true ⟨_, rfl⟩ rfl
    | false => simp [Except.map]

theorem exists_sheetDeclaration_iff {r : Registration} :
    (∃ declaration, sheetDeclaration o r = .ok declaration) ↔
      ∀ e ∈ r.properties.entries, HasLiteral e.2 := by
  simp only [sheetDeclaration_eq_ok_iff, styleObject_eq_ok_iff, exists_styleMember_iff]
  constructor
  · rintro ⟨_, _, ⟨hall, -⟩, -⟩
    exact hall
  · intro hall
    exact ⟨_, _, ⟨hall, rfl⟩, rfl⟩

/-! ## Patches -/

/-- The entry has an expression to be evaluated. -/
def IsEvaluable (expressions : List Expression) (e : PatchEntry) : Prop :=
  ∃ x, expressions[e.expression]? = some x ∧ Text.trim x.source ≠ ""

theorem exists_patchMember_iff {parameter : String} {expressions : List Expression}
    {e : PatchEntry} : (∃ member, patchMember parameter expressions e = .ok member) ↔
      IsEvaluable expressions e := by
  unfold patchMember IsEvaluable
  cases expressions[e.expression]? with
  | none => simp
  | some x =>
    dsimp only
    split
    · rename_i hblank
      simp [hblank]
    · rename_i hsource
      exact iff_of_true ⟨_, rfl⟩ ⟨x, rfl, hsource⟩

/-- The members of a patch. -/
def patchMembers (expressions : List Expression) (p : PatchBuilder) : List String :=
  written (patchMember p.parameter expressions) p.entries

/-- A function of these members. -/
def patchText (parameter : String) (members : List String) : String :=
  "(" ++ parameter ++ ") => (\x7b " ++ ", ".intercalate members ++ " \x7d)"

theorem patchFunction_eq_ok_iff {expressions : List Expression} {p : PatchBuilder}
    {text : String} : patchFunction expressions p = .ok text ↔
      (∀ e ∈ p.entries, IsEvaluable expressions e) ∧
        text = patchText p.parameter (patchMembers expressions p) := by
  have hall : (∀ e ∈ p.entries, IsEvaluable expressions e) ↔
      ∀ e ∈ p.entries, ∃ member, patchMember p.parameter expressions e = .ok member :=
    forall₂_congr fun _ _ => exists_patchMember_iff.symm
  rw [hall, patchFunction]
  simp only [bind, bind_eq_ok_iff, mapM_eq_ok_iff]
  constructor
  · rintro ⟨_, ⟨hmembers, rfl⟩, heq⟩
    exact ⟨hmembers, (Except.ok.inj heq).symm⟩
  · rintro ⟨hmembers, rfl⟩
    exact ⟨_, ⟨hmembers, rfl⟩, rfl⟩

theorem length_patchMembers {expressions : List Expression} {p : PatchBuilder}
    (h : ∀ e ∈ p.entries, IsEvaluable expressions e) :
    (patchMembers expressions p).length = p.entries.length :=
  length_written fun e he => exists_patchMember_iff.2 (h e he)

/-! ## Code -/

theorem exists_callee_iff : (∃ callee, Script.callee o t.tag = .ok callee) ↔
    ∀ component, t.tag = .styled component → Text.trim component ≠ "" := by
  unfold Script.callee
  cases t.tag with
  | css => exact iff_of_true ⟨_, rfl⟩ (by simp)
  | styled component =>
    dsimp only
    split
    · rename_i hblank
      simp [hblank]
    · rename_i hcomponent
      exact iff_of_true ⟨_, rfl⟩ (by simpa using hcomponent)

/-- What there may be can be written just if it can be written where it is there. -/
theorem exists_optionMapM_iff {α β ε : Type} {f : α → Except ε β} {x : Option α} :
    (∃ y, x.mapM f = .ok y) ↔ ∀ a ∈ x, ∃ b, f a = .ok b := by
  cases x with
  | none => exact iff_of_true ⟨_, rfl⟩ (by simp)
  | some a =>
    simp only [mapM_some_eq_ok_iff, Option.mem_def, Option.some.injEq, forall_eq']
    exact ⟨fun ⟨_, b, hb, _⟩ => ⟨b, hb⟩, fun ⟨b, hb⟩ => ⟨_, b, hb, rfl⟩⟩

/-- **When code is generated.** -/
theorem exists_replacement_iff {i : Instructions} : (∃ code, replacement o t i = .ok code) ↔
    i.isEmpty = false ∧
      (∀ r ∈ i.registration, ∀ e ∈ r.properties.entries, HasLiteral e.2) ∧
      (∀ p ∈ i.patch, ∀ e ∈ p.entries, IsEvaluable t.expressions e) ∧
      ∀ component, t.tag = .styled component → Text.trim component ≠ "" := by
  simp only [← exists_sheetDeclaration_iff (o := o), ← exists_callee_iff (o := o)]
  have hpatch : (∀ p ∈ i.patch, ∀ e ∈ p.entries, IsEvaluable t.expressions e) ↔
      ∀ p ∈ i.patch, ∃ text, patchFunction t.expressions p = .ok text := by
    refine forall₂_congr fun p _ => ?_
    simp only [patchFunction_eq_ok_iff]
    exact ⟨fun h => ⟨_, h, rfl⟩, fun ⟨_, h, _⟩ => h⟩
  rw [hpatch, ← exists_optionMapM_iff, ← exists_optionMapM_iff]
  simp only [replacement_eq_ok_iff]
  constructor
  · rintro ⟨_, hempty, hoisted, patch, callee, hhoisted, hfunction, hcallee, -⟩
    exact ⟨hempty, ⟨hoisted, hhoisted⟩, ⟨patch, hfunction⟩, callee, hcallee⟩
  · rintro ⟨hempty, ⟨hoisted, hhoisted⟩, ⟨patch, hfunction⟩, callee, hcallee⟩
    exact ⟨_, hempty, hoisted, patch, callee, hhoisted, hfunction, hcallee, rfl⟩

/-! ## Errors -/

theorem bind_eq_error_iff {α β ε : Type} {x : Except ε α} {f : α → Except ε β} {error : ε} :
    x.bind f = .error error ↔ x = .error error ∨ ∃ a, x = .ok a ∧ f a = .error error := by
  cases x <;> simp [Except.bind]

theorem map_eq_error_iff {α β ε : Type} {x : Except ε α} {f : α → β} {error : ε} :
    x.map f = .error error ↔ x = .error error := by
  cases x <;> simp [Except.map]

/-- A row fails with the error of one of its parts. -/
theorem exists_of_mapM_eq_error {α ε : Type} {f : α → Except ε String} {xs : List α} {error : ε}
    (h : xs.mapM f = .error error) : ∃ x ∈ xs, f x = .error error := by
  induction xs with
  | nil => simp [List.mapM_nil, pure, Except.pure] at h
  | cons x xs ih =>
    rw [List.mapM_cons] at h
    simp only [bind, bind_eq_error_iff] at h
    rcases h with hx | ⟨_, -, hxs | ⟨_, -, hok⟩⟩
    · exact ⟨x, List.mem_cons_self .., hx⟩
    · obtain ⟨y, hy, herror⟩ := ih hxs
      exact ⟨y, List.mem_cons_of_mem _ hy, herror⟩
    · simp [pure, Except.pure] at hok

/-- What is there fails with its own error. -/
theorem exists_of_optionMapM_eq_error {α β ε : Type} {f : α → Except ε β} {x : Option α}
    {error : ε} (h : x.mapM f = .error error) : ∃ a ∈ x, f a = .error error := by
  cases x with
  | none => simp [pure, Except.pure] at h
  | some a =>
    rw [Option.mapM_some] at h
    exact ⟨a, rfl, map_eq_error_iff.1 h⟩

theorem styleMember_eq_error {e : String × StyleValue} {error : GenerationError}
    (h : styleMember e = .error error) : ∃ value, e.2 = .number value ∧
      value.isFinite = false ∧ error = .noLiteral e.1 value := by
  rw [styleMember, map_eq_error_iff] at h
  obtain ⟨property, v⟩ := e
  cases v with
  | text s => simp [styleLiteral] at h
  | number value =>
    rw [styleLiteral] at h
    split at h
    · simp at h
    · rename_i hfinite
      exact ⟨value, rfl, Bool.eq_false_iff.2 hfinite, (Except.error.inj h).symm⟩

theorem sheetDeclaration_eq_error {r : Registration} {error : GenerationError}
    (h : sheetDeclaration o r = .error error) : ∃ property value,
      (property, .number value) ∈ r.properties.entries ∧ value.isFinite = false ∧
        error = .noLiteral property value := by
  rw [sheetDeclaration] at h
  simp only [bind, bind_eq_error_iff] at h
  rcases h with hobject | ⟨_, -, hok⟩
  · rw [styleObject, map_eq_error_iff] at hobject
    obtain ⟨⟨property, v⟩, he, hmember⟩ := exists_of_mapM_eq_error hobject
    obtain ⟨value, rfl, hfinite, rfl⟩ := styleMember_eq_error hmember
    exact ⟨property, value, he, hfinite, rfl⟩
  · simp [pure, Except.pure] at hok

theorem patchMember_eq_error {parameter : String} {expressions : List Expression} {e : PatchEntry}
    {error : GenerationError} (h : patchMember parameter expressions e = .error error) :
    (expressions.length ≤ e.expression ∧
      error = .outOfRange e.expression e.property expressions.length) ∨
    ∃ x, expressions[e.expression]? = some x ∧ Text.trim x.source = "" ∧
      error = .blankExpression e.expression e.property := by
  rw [patchMember] at h
  cases hx : expressions[e.expression]? with
  | none =>
    rw [hx] at h
    exact .inl ⟨List.getElem?_eq_none_iff.1 hx, (Except.error.inj h).symm⟩
  | some x =>
    rw [hx] at h
    dsimp only at h
    split at h
    · rename_i hblank
      exact .inr ⟨x, rfl, hblank, (Except.error.inj h).symm⟩
    · simp at h

theorem patchFunction_eq_error {expressions : List Expression} {p : PatchBuilder}
    {error : GenerationError} (h : patchFunction expressions p = .error error) :
    ∃ e ∈ p.entries, patchMember p.parameter expressions e = .error error := by
  rw [patchFunction] at h
  simp only [bind, bind_eq_error_iff] at h
  rcases h with h | ⟨_, -, hok⟩
  · exact exists_of_mapM_eq_error h
  · simp [pure, Except.pure] at hok

theorem callee_eq_error {tag : Tag} {error : GenerationError}
    (h : Script.callee o tag = .error error) : ∃ component, tag = .styled component ∧
      Text.trim component = "" ∧ error = .blankComponent := by
  unfold Script.callee at h
  cases tag with
  | css => simp at h
  | styled component =>
    dsimp only at h
    split at h
    · rename_i hblank
      exact ⟨component, rfl, hblank, (Except.error.inj h).symm⟩
    · simp at h

/-- The steps of generating code, of which the first that fails gives the error. -/
theorem replacement_eq_error {i : Instructions} {error : GenerationError}
    (h : replacement o t i = .error error) : (i.isEmpty = true ∧ error = .nothingToDo) ∨
      (∃ r ∈ i.registration, sheetDeclaration o r = .error error) ∨
      (∃ p ∈ i.patch, patchFunction t.expressions p = .error error) ∨
      Script.callee o t.tag = .error error := by
  unfold replacement at h
  cases hempty : i.isEmpty with
  | true =>
    simp only [hempty, if_true, bind, Except.bind, throw, throwThe, MonadExceptOf.throw] at h
    exact .inl ⟨rfl, (Except.error.inj h).symm⟩
  | false =>
    simp only [hempty, Bool.false_eq_true, if_false, bind, bind_eq_error_iff] at h
    rcases h with hsheet | ⟨_, -, hpatch | ⟨_, -, hcallee | ⟨_, -, hok⟩⟩⟩
    · exact .inr (.inl (exists_of_optionMapM_eq_error hsheet))
    · exact .inr (.inr (.inl (exists_of_optionMapM_eq_error hpatch)))
    · exact .inr (.inr (.inr hcallee))
    · simp [pure, Except.pure] at hok

/-- **An error names what is wrong.** -/
theorem reports_of_replacement {i : Instructions} {error : GenerationError}
    (h : replacement o t i = .error error) : error.Reports t i := by
  rcases replacement_eq_error h with
    ⟨hempty, rfl⟩ | ⟨r, hr, hsheet⟩ | ⟨p, hp, hpatch⟩ | hcallee
  · exact hempty
  · obtain ⟨property, value, he, hfinite, rfl⟩ := sheetDeclaration_eq_error hsheet
    exact ⟨r, hr, he, hfinite⟩
  · obtain ⟨e, he, hmember⟩ := patchFunction_eq_error hpatch
    rcases patchMember_eq_error hmember with ⟨hlength, rfl⟩ | ⟨x, hx, hblank, rfl⟩
    · exact ⟨p, hp, he, rfl, hlength⟩
    · exact ⟨p, hp, he, x, hx, hblank⟩
  · obtain ⟨component, htag, hblank, rfl⟩ := callee_eq_error hcallee
    exact ⟨component, htag, hblank⟩

end Script

end TemplateStyles
