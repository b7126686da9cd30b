import Mathlib.Data.List.Nodup
import TemplateStyles.Proofs.Script.Replacement
import TemplateStyles.Proofs.Text.MarkerScan
import TemplateStyles.StyleModule.Output
/-!
# Templates of one module

Templates share nothing but the numbering of sheets: a template takes a number just if it has fixed
properties to register, whether or not code is generated for it (`ids_compileFrom`). The number is
all that depends on the templates before it (`renumbered_compile`): it stands in the registration,
in the declaration of the sheet and at one place of the code. A script has all declarations before
all exports (`script_eq`). Main result `compile_independent`.
-/
namespace TemplateStyles

namespace Template

/-- Whether there are fixed properties to register. -/
def takesSheet (t : Template) : Bool := !t.block.rule.registered.isEmpty

/-- The code of the template names `id` as the sheet of its metadata. -/
def RefersTo (o : Options) (t : Template) (code id : String) : Prop :=
  Script.isIdentifier id = true ∧ ∃ callee members, Script.callee o t.tag = .ok callee ∧
    code = Script.sheetCall callee id members

end Template

/-- The declaration is one of the constant `id`. -/
def declares (id declaration : String) : Bool :=
  ("const " ++ id ++ " = ").toList.isPrefixOf declaration.toList

/-- An outcome with another name of its sheet, in the declaration and in the code. -/
inductive Outcome.Renumbered (id id' : String) : Outcome → Outcome → Prop
  | kept (literal : String) : Renumbered id id' (.kept literal) (.kept literal)
  | rewritten (object callee members : String) : Renumbered id id'
      (.rewritten (Script.sheetCode id object callee members))
      (.rewritten (Script.sheetCode id' object callee members))

/-- A compiled template with another name of its sheet, and nothing else changed. -/
structure CompiledTemplate.Renumbered (id id' : String) (ct ct' : CompiledTemplate) : Prop where
  name : ct'.name = ct.name
  findings : ct'.findings = ct.findings
  patch : ct'.instructions.patch = ct.instructions.patch
  registration : ∃ key properties, ct.instructions.registration = some ⟨id, key, properties⟩ ∧
    ct'.instructions.registration = some ⟨id', key, properties⟩
  outcome : ct.outcome.Renumbered id id' ct'.outcome

theorem CompiledTemplate.hoisted_of_kept {ct : CompiledTemplate}
    (h : ct.outcome.isRewritten = false) : ct.outcome.hoisted = none := by
  cases houtcome : ct.outcome with
  | kept literal => rfl
  | rewritten code => simp [houtcome, Outcome.isRewritten] at h

/-! ## Names of sheets -/

theorem SheetCounter.id_injective {c c' : SheetCounter} (h : c.id = c'.id) : c = c' := by
  have hused : c.used = c'.used := Text.Digit.repr_injective (by simpa [SheetCounter.id] using h)
  cases c
  cases c'
  exact congrArg _ hused

theorem SheetCounter.isIdentifier_id (c : SheetCounter) : Script.isIdentifier c.id = true := by
  have htext : c.id.toList = '_' :: ['_', 'k', 's'] ++ (Nat.repr c.used).toList := by
    rw [SheetCounter.id, String.toList_append]
    rfl
  rw [Script.isIdentifier, htext, List.cons_append, Script.isIdentifierChars, List.all_append,
    Bool.and_eq_true, Bool.and_eq_true]
  refine ⟨by decide, by decide, List.all_eq_true.2 fun d hd => ?_⟩
  rw [Nat.toList_repr] at hd
  have hdigit := Nat.isDigit_of_mem_toDigits (by decide) (by decide) hd
  simp [Script.isIdentifierPart, Char.isAlphanum, hdigit]

theorem declares_eq_true_iff {id id' object : String} (h : Script.isIdentifier id = true)
    (h' : Script.isIdentifier id' = true) :
    declares id ("const " ++ id' ++ " = " ++ object) = true ↔ id' = id := by
  rw [declares, List.isPrefixOf_iff_prefix]
  simp only [String.toList_append, List.append_assoc, List.prefix_append_right_inj]
  constructor
  · rintro ⟨rest, hrest⟩
    have hequals : " = ".toList = ' ' :: "= ".toList := rfl
    rw [List.append_assoc, hequals, List.cons_append, List.cons_append] at hrest
    exact (Script.identifier_append_inj h h' (by decide) hrest).symm
  · rintro rfl
    exact ⟨object.toList, by simp⟩

/-! ## One template -/

namespace Template

variable (o : Options) (t : Template) (c c' : SheetCounter)

theorem counter_emission :
    (t.emission c).counter = ⟨c.used + if t.takesSheet then 1 else 0⟩ := by
  rw [emission, emit, takesSheet]
  cases t.block.rule.registered.isEmpty <;> rfl

/-- Only the registration depends on the templates before. -/
theorem instructions_emission : (t.emission c).instructions =
    ⟨registration? t.block.rule.registered c, (t.emission .start).instructions.patch⟩ := by
  simp only [emission, emit]

theorem instructions_of_takesSheet (h : t.takesSheet = true) : (t.emission c).instructions =
    ⟨some ⟨c.id, baseKey, t.block.rule.registered⟩, (t.emission .start).instructions.patch⟩ := by
  have hempty : t.block.rule.registered.isEmpty = false := by simpa [takesSheet] using h
  rw [instructions_emission, registration?, if_neg (by simp [hempty])]

theorem instructions_of_not_takesSheet (h : t.takesSheet = false) :
    (t.emission c).instructions = ⟨none, (t.emission .start).instructions.patch⟩ := by
  have hempty : t.block.rule.registered.isEmpty = true := by simpa [takesSheet] using h
  rw [instructions_emission, registration?, if_pos hempty]

/-- **A template with a sheet depends on its number alone.** -/
theorem renumbered_compile (h : t.takesSheet = true) :
    (t.compile o c).Renumbered c.id c'.id (t.compile o c') := by
  rw [compile, compile, t.instructions_of_takesSheet c h, t.instructions_of_takesSheet c' h]
  refine ⟨rfl, rfl, rfl, ⟨_, _, rfl, rfl⟩, ?_⟩
  dsimp only
  rw [outcome, outcome]
  rcases Script.replacement_of_sheet o t baseKey t.block.rule.registered
    (t.emission .start).instructions.patch with herror | ⟨object, callee, members, -, hcode⟩
  · obtain ⟨e, he⟩ := herror c.id
    obtain ⟨e', he'⟩ := herror c'.id
    rw [he, he']
    exact .kept _
  · rw [hcode, hcode]
    exact .rewritten object callee members

/-- A template without fixed properties does not depend on the templates before it. -/
theorem compile_of_not_takesSheet (h : t.takesSheet = false) : t.compile o c = t.compile o c' := by
  rw [compile, compile, t.instructions_of_not_takesSheet c h, t.instructions_of_not_takesSheet c' h]

variable {o t c}

/-- A rewritten template with a sheet names it in the declaration and in the code. -/
theorem outcome_of_takesSheet (h : t.takesSheet = true)
    (hrewritten : (t.compile o c).outcome.isRewritten = true) :
    ∃ object callee members, Script.callee o t.tag = .ok callee ∧
      (t.compile o c).outcome = .rewritten (Script.sheetCode c.id object callee members) := by
  revert hrewritten
  rw [compile, t.instructions_of_takesSheet c h]
  dsimp only
  rw [outcome]
  rcases Script.replacement_of_sheet o t baseKey t.block.rule.registered
    (t.emission .start).instructions.patch with herror | ⟨object, callee, members, hcallee, hcode⟩
  · obtain ⟨e, he⟩ := herror c.id
    rw [he]
    simp [Outcome.isRewritten]
  · rw [hcode]
    exact fun _ => ⟨object, callee, members, hcallee, rfl⟩

/-- A rewritten template without a sheet declares nothing. -/
theorem outcome_of_not_takesSheet (h : t.takesSheet = false)
    (hrewritten : (t.compile o c).outcome.isRewritten = true) :
    (t.compile o c).outcome.hoisted = none ∧
      ∃ callee members, Script.callee o t.tag = .ok callee ∧
        (t.compile o c).outcome.code = Script.patchCall callee members := by
  revert hrewritten
  rw [compile, t.instructions_of_not_takesSheet c h]
  dsimp only
  rw [outcome]
  cases hcode : Script.replacement o t ⟨none, (t.emission .start).instructions.patch⟩ with
  | error e => simp [Outcome.isRewritten]
  | ok code => exact fun _ => Script.replacement_without_sheet hcode

theorem registration_of_takesSheet (h : t.takesSheet = true) :
    (t.compile o c).instructions.registration.map (·.id) = some c.id := by
  rw [compile, t.instructions_of_takesSheet c h]
  rfl

theorem registration_of_not_takesSheet (h : t.takesSheet = false) :
    (t.compile o c).instructions.registration = none := by
  rw [compile, t.instructions_of_not_takesSheet c h]

/-- **Rewritten code refers to the registered sheet**, and to no other. -/
theorem refersTo_iff (hrewritten : (t.compile o c).outcome.isRewritten = true) (id : String) :
    t.RefersTo o (t.compile o c).outcome.code id ↔
      (t.compile o c).instructions.registration.map (·.id) = some id := by
  cases h : t.takesSheet with
  | true =>
    obtain ⟨object, callee, members, hcallee, houtcome⟩ := outcome_of_takesSheet h hrewritten
    rw [registration_of_takesSheet h, houtcome]
    constructor
    · rintro ⟨hid, callee', members', hcallee', hcode⟩
      obtain rfl := Except.ok.inj (hcallee.symm.trans hcallee')
      rw [Script.sheetCall_inj c.isIdentifier_id hid hcode]
    · intro hid
      obtain rfl := Option.some.inj hid
      exact ⟨c.isIdentifier_id, callee, members, hcallee, rfl⟩
  | false =>
    obtain ⟨-, callee, members, hcallee, hcode⟩ := outcome_of_not_takesSheet h hrewritten
    rw [registration_of_not_takesSheet h, hcode]
    constructor
    · rintro ⟨-, callee', members', hcallee', hcode'⟩
      obtain rfl := Except.ok.inj (hcallee.symm.trans hcallee')
      exact (Script.patchCall_ne_sheetCall _ _ _ _ hcode').elim
    · simp

/-- What a template declares. -/
theorem declares_hoisted_iff {id : String} (hid : Script.isIdentifier id = true) :
    (t.compile o c).outcome.hoisted.any (declares id) = true ↔
      (t.compile o c).outcome.isRewritten = true ∧
        (t.compile o c).instructions.registration.map (·.id) = some id := by
  cases hrewritten : (t.compile o c).outcome with
  | kept literal => simp [Outcome.hoisted, Outcome.isRewritten]
  | rewritten code =>
    have hisRewritten : (t.compile o c).outcome.isRewritten = true := by rw [hrewritten]; rfl
    rw [← hrewritten]
    cases h : t.takesSheet with
    | true =>
      obtain ⟨object, callee, members, -, houtcome⟩ := outcome_of_takesSheet h hisRewritten
      rw [registration_of_takesSheet h, houtcome, Outcome.hoisted, Script.sheetCode,
        Option.any_some, declares_eq_true_iff hid c.isIdentifier_id]
      simp [Outcome.isRewritten]
    | false =>
      obtain ⟨hhoisted, -⟩ := outcome_of_not_takesSheet h hisRewritten
      rw [registration_of_not_takesSheet h, hhoisted]
      simp

end Template

/-! ## All templates of a module -/

/-- The names of the sheets that are registered. -/
def sheetIds (cts : List CompiledTemplate) : List String :=
  cts.filterMap fun ct => ct.instructions.registration.map (·.id)

namespace Source

variable {o : Options}

theorem length_compileFrom (c : SheetCounter) (ts : List Template) :
    (compileFrom o c ts).length = ts.length := by
  induction ts generalizing c with
  | nil => rfl
  | cons t ts ih => rw [compileFrom, List.length_cons, List.length_cons, ih]

/-- Before a template, as many numbers are used as templates in front of it take a sheet. -/
theorem getElem?_compileFrom (c : SheetCounter) (ts : List Template) (j : Nat) :
    (compileFrom o c ts)[j]? = ts[j]?.map fun t =>
      t.compile o ⟨c.used + (ts.take j).countP Template.takesSheet⟩ := by
  induction ts generalizing c j with
  | nil => rfl
  | cons t ts ih =>
    cases j with
    | zero => simp [compileFrom]
    | succ j =>
      have hused : c.used + (if t.takesSheet then 1 else 0) +
          (ts.take j).countP Template.takesSheet =
          c.used + ((ts.take j).countP Template.takesSheet + if t.takesSheet then 1 else 0) := by
        omega
      rw [compileFrom, List.getElem?_cons_succ, List.getElem?_cons_succ, ih, t.counter_emission,
        List.take_succ_cons, List.countP_cons, ← hused]

/-- **The sheets are numbered without gaps**, in the order of their templates. -/
theorem ids_compileFrom (c : SheetCounter) (ts : List Template) :
    sheetIds (compileFrom o c ts) =
      (List.range (ts.countP Template.takesSheet)).map fun k =>
        (⟨c.used + k⟩ : SheetCounter).id := by
  induction ts generalizing c with
  | nil => rfl
  | cons t ts ih =>
    rw [compileFrom, sheetIds, List.filterMap_cons, ← sheetIds, ih, t.counter_emission,
      List.countP_cons]
    cases h : t.takesSheet with
    | true =>
      rw [Template.registration_of_takesSheet h, if_pos rfl, List.range_succ_eq_map]
      simp [Function.comp_def, Nat.add_assoc, Nat.add_comm 1]
    | false =>
      rw [Template.registration_of_not_takesSheet h]
      simp

theorem nodup_ids (ts : List Template) : (sheetIds (compileFrom o .start ts)).Nodup := by
  rw [ids_compileFrom]
  refine List.Nodup.map ?_ List.nodup_range
  intro j k h
  simpa [SheetCounter.start] using SheetCounter.id_injective h

theorem exists_compile_of_mem {c : SheetCounter} {ts : List Template} {ct : CompiledTemplate}
    (h : ct ∈ compileFrom o c ts) : ∃ (t : Template) (c' : SheetCounter), ct = t.compile o c' := by
  obtain ⟨j, hj⟩ := List.getElem?_of_mem h
  rw [getElem?_compileFrom] at hj
  obtain ⟨t, -, rfl⟩ := Option.map_eq_some_iff.1 hj
  exact ⟨t, _, rfl⟩

/-- **A sheet that rewritten code refers to is declared once.** -/
theorem countP_declares {ts : List Template} {id : String} (hid : Script.isIdentifier id = true)
    {ct : CompiledTemplate} (hct : ct ∈ compileFrom o .start ts)
    (hrewritten : ct.outcome.isRewritten = true)
    (hregistered : ct.instructions.registration.map (·.id) = some id) :
    ((compileFrom o .start ts).filterMap (·.outcome.hoisted)).countP (declares id) = 1 := by
  have hdeclares : ∀ ct' ∈ compileFrom o .start ts,
      ct'.outcome.hoisted.any (declares id) = true ↔ ct'.outcome.isRewritten = true ∧
        ct'.instructions.registration.map (·.id) = some id := by
    intro ct' hct'
    obtain ⟨t, c, rfl⟩ := exists_compile_of_mem hct'
    exact Template.declares_hoisted_iff hid
  have hmost : (compileFrom o .start ts).countP (fun ct' => ct'.outcome.hoisted.any (declares id)) ≤
      (sheetIds (compileFrom o .start ts)).count id := by
    rw [sheetIds, List.count, List.countP_filterMap]
    refine List.countP_mono_left fun ct' hct' h => ?_
    rw [((hdeclares ct' hct').1 h).2]
    simp
  have hone := List.nodup_iff_count_le_one.1 (nodup_ids (o := o) ts) id
  have hleast : 0 < (compileFrom o .start ts).countP
      (fun ct' => ct'.outcome.hoisted.any (declares id)) :=
    List.countP_pos_iff.2 ⟨ct, hct, (hdeclares ct hct).2 ⟨hrewritten, hregistered⟩⟩
  have hany : ∀ hoisted : Option String,
      (hoisted.map (declares id)).getD false = hoisted.any (declares id) := by
    intro hoisted
    cases hoisted <;> rfl
  rw [List.countP_filterMap]
  simp only [hany]
  omega

end Source

/-! ## The script -/

namespace StyleModule

theorem exportLines_eq_join (index : Nat) (cts : List CompiledTemplate) :
    exportLines index cts = String.join (cts.mapIdx fun j ct =>
      "\nexport const " ++ ct.exportName (index + j) ++ " = " ++ ct.outcome.code ++ ";\n") := by
  induction cts generalizing index with
  | nil =>
    unfold exportLines
    rw [List.mapIdx_nil, String.join_nil]
  | cons ct cts ih =>
    -- `exportLines` counts the index up, `mapIdx_cons` shifts the positions of the rest.
    unfold exportLines
    rw [ih, List.mapIdx_cons, String.join_cons]
    simp only [Nat.add_zero, Nat.add_assoc, Nat.add_comm 1]

/-- **The parts of a script**: header, imports, all declarations, and the exports behind them. -/
theorem script_eq (o : Options) (m : StyleModule) :
    m.script o = scriptHeader m.fileName ++
      (if m.hoisted = [] then "" else importLine [o.sheetName] o.sheetModule) ++
      (if m.helpers o = [] then "" else importLine (m.helpers o) o.helperModule) ++
      (if m.hoisted = [] then "" else "\n") ++
      String.join (m.hoisted.map (· ++ "\n")) ++
      String.join (m.templates.mapIdx fun j ct =>
        "\nexport const " ++ ct.exportName j ++ " = " ++ ct.outcome.code ++ ";\n") := by
  have hexports := exportLines_eq_join 0 m.templates
  simp only [Nat.zero_add] at hexports
  rw [script, hexports]
  -- The blank line in front of the declarations is left out together with them.
  by_cases h : m.hoisted = []
  · simp only [h, if_true, List.map_nil, String.join_nil, String.append_empty]
  · simp only [if_neg h, String.append_assoc]

end StyleModule

/-- **Templates of one module are independent.** The sheets are numbered through, also where no
code is generated. A template is compiled as it is alone, but for the number of its sheet. Each
sheet that rewritten code refers to is declared once. A script is its header, the imports, all
declarations and then the exports, in the order of the templates: no declaration stands behind an
export. -/
theorem Source.compile_independent (o : Options) (file : String) (s : Source) :
    let m := s.compile o file
    sheetIds m.templates = ((List.range (s.templates.countP Template.takesSheet)).map fun k =>
        "__ks" ++ toString k) ∧
      (sheetIds m.templates).Nodup ∧
      m.templates.length = s.templates.length ∧
      (∀ j t, s.templates[j]? = some t → ∃ ct alone, m.templates[j]? = some ct ∧
        (compile o file ⟨[t]⟩).templates = [alone] ∧
        (if t.takesSheet then
          alone.Renumbered "__ks0"
            ("__ks" ++ toString ((s.templates.take j).countP Template.takesSheet)) ct
        else ct = alone) ∧
        (ct.outcome.isRewritten = true → ∀ id,
          (t.RefersTo o ct.outcome.code id ↔
            ct.instructions.registration.map (·.id) = some id) ∧
          (t.RefersTo o ct.outcome.code id → m.hoisted.countP (declares id) = 1))) ∧
      m.script o = scriptHeader file ++
        (if m.hoisted = [] then "" else importLine [o.sheetName] o.sheetModule) ++
        (if m.helpers o = [] then "" else importLine (m.helpers o) o.helperModule) ++
        (if m.hoisted = [] then "" else "\n") ++
        String.join (m.hoisted.map (· ++ "\n")) ++
        String.join (m.templates.mapIdx fun j ct =>
          "\nexport const " ++ ct.exportName j ++ " = " ++ ct.outcome.code ++ ";\n") := by
  intro m
  refine ⟨?_, nodup_ids s.templates, length_compileFrom _ _, ?_, m.script_eq o⟩
  · refine (ids_compileFrom .start s.templates).trans ?_
    simp [SheetCounter.start, SheetCounter.id]
  · intro j t ht
    have hct : m.templates[j]? =
        some (t.compile o ⟨(s.templates.take j).countP Template.takesSheet⟩) := by
      have hget := getElem?_compileFrom (o := o) .start s.templates j
      rw [ht, Option.map_some, SheetCounter.start, Nat.zero_add] at hget
      exact hget
    refine ⟨_, t.compile o .start, hct, rfl, ?_, ?_⟩
    · cases h : t.takesSheet with
      | true => exact t.renumbered_compile o .start _ h
      | false => exact t.compile_of_not_takesSheet o _ _ h
    · intro hrewritten id
      have hiff := Template.refersTo_iff hrewritten id
      exact ⟨hiff, fun hrefers =>
        countP_declares hrefers.1 (List.mem_of_getElem? hct) hrewritten (hiff.1 hrefers)⟩

/-- Five templates: the second has a number, but no code, since its component is blank; the third
and the fourth have no fixed properties. -/
theorem Source.compile_independent_fifth :
    let t : Template := ⟨some "Last", .css, ["margin: 4px;"], []⟩
    let s : Source := ⟨[⟨some "First", .css, ["opacity: 0.5;"], []⟩,
      ⟨none, .styled " ", ["flex: 1;"], []⟩,
      ⟨none, .css, ["color: ", ";"], [⟨"tint", false⟩]⟩, ⟨none, .css, [""], []⟩, t]⟩
    let m := s.compile .standard "list.json"
    sheetIds m.templates = ["__ks0", "__ks1", "__ks2"] ∧
      m.hoisted.countP (declares "__ks2") = 1 ∧
      (∃ ct alone, m.templates[4]? = some ct ∧
        (compile .standard "list.json" ⟨[t]⟩).templates = [alone] ∧
        alone.Renumbered "__ks0" "__ks2" ct) ∧
      m.script .standard = "// Generated by kstyc v0.1.0 from list.json\n" ++
        "import \x7b StyleSheet \x7d from 'react-native';\n" ++
        "import \x7b styled, css \x7d from 'kstyled';\n" ++ "\n" ++
        ("const __ks0 = StyleSheet.create(\x7b base: \x7b opacity: 0.5 \x7d \x7d);\n" ++
          "const __ks2 = StyleSheet.create(\x7b base: \x7b margin: 4 \x7d \x7d);\n") ++
        String.join
          ["\nexport const First = " ++
            "css.__withStyles(\x7b compiledStyles: __ks0, styleKeys: [\"base\"] \x7d);\n",
          "\nexport const style1 = styled( )\x60flex: 1;\x60;\n",
          "\nexport const style2 = " ++
            "css.__withStyles(\x7b getDynamicPatch: (p) => (\x7b color: tint \x7d) \x7d);\n",
          "\nexport const style3 = css\x60\x60;\n",
          "\nexport const Last = " ++
            "css.__withStyles(\x7b compiledStyles: __ks2, styleKeys: [\"base\"] \x7d);\n"] := by
  intro t s m
  obtain ⟨hids, -, -, htemplates, hscript⟩ := Source.compile_independent .standard "list.json" s
  obtain ⟨ct, alone, hct, halone, hnumber, hrefers⟩ := htemplates 4 t rfl
  have htakes : t.takesSheet = true := by decide +kernel
  have hcount : "__ks" ++ toString ((s.templates.take 4).countP Template.takesSheet) = "__ks2" := by
    decide +kernel
  have hrewritten : ct.outcome.isRewritten = true := by
    have hfifth : m.templates[4]?.map (·.outcome.isRewritten) = some true := by decide +kernel
    rw [hct] at hfifth
    exact Option.some.inj hfifth
  have hcode : ct.outcome.code =
      "css" ++ ".__withStyles(\x7b compiledStyles: " ++ "__ks2" ++ ", " ++
        "styleKeys: [\"base\"] \x7d)" := by
    have hfifth : m.templates[4]?.map (·.outcome.code) =
        some "css.__withStyles(\x7b compiledStyles: __ks2, styleKeys: [\"base\"] \x7d)" := by
      decide +kernel
    rw [hct] at hfifth
    exact Option.some.inj hfifth
  rw [if_pos htakes, hcount] at hnumber
  refine ⟨?_, (hrefers hrewritten "__ks2").2 ⟨by decide, "css", _, rfl, hcode⟩,
    ⟨ct, alone, hct, halone, hnumber⟩, ?_⟩
  · rw [hids]
    decide +kernel
  · rw [hscript]
    decide +kernel

end TemplateStyles
