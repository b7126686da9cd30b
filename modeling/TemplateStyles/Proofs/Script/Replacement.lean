import TemplateStyles.Script.Replacement
/-!
# The form of generated code

Generated code is a callee, `.__withStyles`, and an object literal of metadata members
(`replacement_eq_ok_iff`). The name of a sheet stands in it at one place and in the sheet's
declaration at another; whether code is generated, and all the rest of it, does not depend on this
name (`replacement_of_sheet_iff`). A call names one sheet (`sheetCall_inj`), or none.
-/
namespace TemplateStyles.Script

/-! ## Identifiers -/

theorem isIdentifierPart_of_mem {id : String} (h : isIdentifier id = true) {c : Char}
    (hc : c ∈ id.toList) : isIdentifierPart c = true := by
  unfold isIdentifier at h
  cases hid : id.toList with
  | nil => simp [hid] at hc
  | cons d r =>
    rw [hid, isIdentifierChars, Bool.and_eq_true] at h
    rw [hid] at hc
    rcases List.mem_cons.1 hc with rfl | hc
    · have hstart := h.1
      simp only [isIdentifierStart, Bool.or_eq_true] at hstart
      simp only [isIdentifierPart, Char.isAlphanum, Bool.or_eq_true]
      exact hstart.imp_left (·.imp_left .inl)
    · exact List.all_eq_true.1 h.2 c hc

/-- An identifier ends where a character stands that is no part of one. -/
theorem identifier_append_inj {id id' : String} (h : isIdentifier id = true)
    (h' : isIdentifier id' = true) {c : Char} (hc : isIdentifierPart c = false)
    {r s : List Char} (heq : id.toList ++ c :: r = id'.toList ++ c :: s) : id = id' := by
  have htake : ∀ {id : String}, isIdentifier id = true → ∀ r,
      (id.toList ++ c :: r).takeWhile isIdentifierPart = id.toList := by
    intro id hid r
    rw [List.takeWhile_append_of_pos fun _ => isIdentifierPart_of_mem hid,
      List.takeWhile_cons_of_neg (by simp [hc]), List.append_nil]
  rw [← String.toList_inj, ← htake h r, heq, htake h' s]

/-! ## Calls -/

variable {o : Options} {t : Template}

/-- The members behind those of the sheet. -/
def laterMembers (o : Options) (patch : Option String) : List String :=
  (patch.map ("getDynamicPatch: " ++ ·)).toList ++ if o.marksDebug then ["debug: true"] else []

/-- The call with these members. -/
def call (callee : String) (members : List String) : String :=
  callee ++ ".__withStyles(\x7b " ++ ", ".intercalate members ++ " \x7d)"

/-- What is there is written. -/
theorem mapM_some_eq_ok_iff {α β ε : Type} {f : α → Except ε β} {a : α} {y : Option β} :
    (some a).mapM f = .ok y ↔ ∃ b, f a = .ok b ∧ y = some b := by
  rw [Option.mapM_some]
  cases f a with
  | error e => simp [Functor.map, Except.map]
  | ok b => simp [Functor.map, Except.map, eq_comm]

/-- **When code is generated**, and which. -/
theorem replacement_eq_ok_iff {i : Instructions} {code : Replacement} :
    replacement o t i = .ok code ↔ i.isEmpty = false ∧ ∃ hoisted patch callee,
      i.registration.mapM (sheetDeclaration o) = .ok hoisted ∧
      i.patch.mapM (patchFunction t.expressions) = .ok patch ∧
      Script.callee o t.tag = .ok callee ∧ code = ⟨hoisted, call callee
        ((i.registration.map sheetMembers).getD [] ++ laterMembers o patch)⟩ := by
  unfold replacement call laterMembers
  cases i.isEmpty with
  | true => simp [bind, Except.bind, throw, throwThe, MonadExceptOf.throw]
  | false =>
    simp only [Bool.false_eq_true, if_false, true_and, bind, Except.bind, pure, Except.pure]
    cases i.registration.mapM (sheetDeclaration o) with
    | error e => simp
    | ok hoisted =>
      cases i.patch.mapM (patchFunction t.expressions) with
      | error e => simp
      | ok patch =>
        cases Script.callee o t.tag with
        | error e => simp
        | ok callee =>
          dsimp only
          rw [List.append_assoc]
          constructor
          · intro h
            exact ⟨hoisted, patch, callee, rfl, rfl, rfl, (Except.ok.inj h).symm⟩
          · rintro ⟨_, _, _, ⟨⟩, ⟨⟩, ⟨⟩, rfl⟩
            rfl

theorem sheetDeclaration_eq_ok_iff {r : Registration} {declaration : String} :
    sheetDeclaration o r = .ok declaration ↔ ∃ object, styleObject r.properties = .ok object ∧
      declaration = "const " ++ r.id ++ " = " ++ (o.sheetName ++ ".create(\x7b " ++
        objectKey r.key ++ ": " ++ object ++ " \x7d);") := by
  unfold sheetDeclaration
  cases styleObject r.properties with
  | error e => simp [bind, Except.bind]
  | ok object => simp [bind, Except.bind, pure, Except.pure, String.append_assoc, eq_comm]

/-- A call whose metadata start with a sheet. -/
def sheetCall (callee id members : String) : String :=
  callee ++ ".__withStyles(\x7b compiledStyles: " ++ id ++ ", " ++ members

/-- A call whose metadata start with a patch. -/
def patchCall (callee members : String) : String :=
  callee ++ ".__withStyles(\x7b getDynamicPatch: " ++ members

/-- A call names one sheet. -/
theorem sheetCall_inj {callee id id' members members' : String} (h : isIdentifier id = true)
    (h' : isIdentifier id' = true)
    (heq : sheetCall callee id members = sheetCall callee id' members') : id = id' := by
  have hchars := congrArg String.toList heq
  have hseparator : ", ".toList = ',' :: " ".toList := rfl
  simp only [sheetCall, String.toList_append, List.append_assoc,
    List.append_cancel_left_eq] at hchars
  rw [hseparator, List.cons_append, List.cons_append] at hchars
  exact identifier_append_inj h h' (by decide) hchars

/-- A call that starts with a patch names no sheet. -/
theorem patchCall_ne_sheetCall (callee id members members' : String) :
    patchCall callee members ≠ sheetCall callee id members' := by
  intro heq
  have hchars := congrArg String.toList heq
  have hpatch : ".__withStyles(\x7b getDynamicPatch: ".toList =
      ".__withStyles(\x7b ".toList ++ 'g' :: "etDynamicPatch: ".toList := rfl
  have hsheet : ".__withStyles(\x7b compiledStyles: ".toList =
      ".__withStyles(\x7b ".toList ++ 'c' :: "ompiledStyles: ".toList := rfl
  simp only [patchCall, sheetCall, String.toList_append, List.append_assoc,
    List.append_cancel_left_eq] at hchars
  rw [hpatch, hsheet, List.append_assoc, List.append_assoc, List.append_cancel_left_eq] at hchars
  exact absurd (List.cons.inj hchars).1 (by decide)

/-- The code for a sheet of a given name: where the name stands in it. -/
def sheetCode (id object callee members : String) : Replacement :=
  ⟨some ("const " ++ id ++ " = " ++ object), sheetCall callee id members⟩

theorem call_sheetMembers (callee id key : String) (properties : StyleMap)
    (later : List String) :
    call callee (sheetMembers ⟨id, key, properties⟩ ++ later) = sheetCall callee id
      (", ".intercalate (("styleKeys: [" ++ Json.Quoted.encode key ++ "]") :: later) ++
        " \x7d)") := by
  have hopening : ".__withStyles(\x7b compiledStyles: " =
      ".__withStyles(\x7b " ++ "compiledStyles: " := rfl
  rw [call, sheetCall, sheetMembers, List.cons_append, List.cons_append, List.nil_append,
    String.intercalate_cons_cons, hopening]
  simp only [String.append_assoc]

/-- **The code of a template with a sheet.** -/
theorem replacement_of_sheet_iff {id key : String} {properties : StyleMap}
    {patch : Option PatchBuilder} {code : Replacement} :
    replacement o t ⟨some ⟨id, key, properties⟩, patch⟩ = .ok code ↔
      ∃ object function callee, styleObject properties = .ok object ∧
        patch.mapM (patchFunction t.expressions) = .ok function ∧
        Script.callee o t.tag = .ok callee ∧
        code = sheetCode id
          (o.sheetName ++ ".create(\x7b " ++ objectKey key ++ ": " ++ object ++ " \x7d);") callee
          (", ".intercalate (("styleKeys: [" ++ Json.Quoted.encode key ++ "]") ::
            laterMembers o function) ++ " \x7d)") := by
  rw [replacement_eq_ok_iff]
  constructor
  · rintro ⟨-, hoisted, function, callee, hhoisted, hfunction, hcallee, rfl⟩
    obtain ⟨declaration, hdeclaration, rfl⟩ := mapM_some_eq_ok_iff.1 hhoisted
    obtain ⟨object, hobject, rfl⟩ := sheetDeclaration_eq_ok_iff.1 hdeclaration
    refine ⟨object, function, callee, hobject, hfunction, hcallee, ?_⟩
    rw [Option.map_some, Option.getD_some, call_sheetMembers]
    rfl
  · rintro ⟨object, function, callee, hobject, hfunction, hcallee, rfl⟩
    refine ⟨rfl, _, function, callee, mapM_some_eq_ok_iff.2 ⟨_,
      sheetDeclaration_eq_ok_iff.2 ⟨object, hobject, rfl⟩, rfl⟩, hfunction, hcallee, ?_⟩
    rw [Option.map_some, Option.getD_some, call_sheetMembers]
    rfl

/-- **Code does not depend on the name of its sheet**, but for the two places where it stands. -/
theorem replacement_of_sheet (o : Options) (t : Template) (key : String) (properties : StyleMap)
    (patch : Option PatchBuilder) :
    (∀ id, ∃ e, replacement o t ⟨some ⟨id, key, properties⟩, patch⟩ = .error e) ∨
      ∃ object callee members, Script.callee o t.tag = .ok callee ∧
        ∀ id, replacement o t ⟨some ⟨id, key, properties⟩, patch⟩ =
          .ok (sheetCode id object callee members) := by
  by_cases h : ∃ id code, replacement o t ⟨some ⟨id, key, properties⟩, patch⟩ = .ok code
  · obtain ⟨_, _, hcode⟩ := h
    obtain ⟨object, function, callee, hobject, hfunction, hcallee, -⟩ :=
      replacement_of_sheet_iff.1 hcode
    exact .inr ⟨_, callee, _, hcallee, fun id =>
      replacement_of_sheet_iff.2 ⟨object, function, callee, hobject, hfunction, hcallee, rfl⟩⟩
  · left
    intro id
    cases hcode : replacement o t ⟨some ⟨id, key, properties⟩, patch⟩ with
    | error e => exact ⟨e, rfl⟩
    | ok code => exact absurd ⟨id, code, hcode⟩ h

/-- A row starts with what its first member starts with. -/
theorem exists_intercalate_append (s first : String) (row : List String) :
    ∃ rest, ", ".intercalate ((s ++ first) :: row) = s ++ rest := by
  cases row with
  | nil => exact ⟨first, String.intercalate_singleton⟩
  | cons second row =>
    exact ⟨first ++ ", " ++ ", ".intercalate (second :: row), by
      rw [String.intercalate_cons_cons]
      simp only [String.append_assoc]⟩

/-- Code without a sheet is a patch alone. -/
theorem replacement_without_sheet {patch : Option PatchBuilder} {code : Replacement}
    (h : replacement o t ⟨none, patch⟩ = .ok code) : code.hoisted = none ∧
      ∃ callee members, Script.callee o t.tag = .ok callee ∧
        code.expression = patchCall callee members := by
  obtain ⟨hempty, hoisted, function, callee, hhoisted, hfunction, hcallee, rfl⟩ :=
    replacement_eq_ok_iff.1 h
  obtain rfl : none = hoisted := Except.ok.inj hhoisted
  refine ⟨rfl, callee, ?_⟩
  cases patch with
  | none => simp [Instructions.isEmpty] at hempty
  | some patch =>
    obtain ⟨text, -, rfl⟩ := mapM_some_eq_ok_iff.1 hfunction
    obtain ⟨rest, hrest⟩ := exists_intercalate_append "getDynamicPatch: " text
      (if o.marksDebug then ["debug: true"] else [])
    have hopening : ".__withStyles(\x7b getDynamicPatch: " =
        ".__withStyles(\x7b " ++ "getDynamicPatch: " := rfl
    have hmembers : laterMembers o (some text) = ("getDynamicPatch: " ++ text) ::
      if o.marksDebug then ["debug: true"] else [] := rfl
    refine ⟨rest ++ " \x7d)", hcallee, ?_⟩
    rw [Option.map_none, Option.getD_none, List.nil_append, call, patchCall, hmembers, hrest,
      hopening]
    simp only [String.append_assoc]

end TemplateStyles.Script
