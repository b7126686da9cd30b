import Mathlib.Data.List.Forall2
import TemplateStyles.Proofs.StyleModule.Independence
/-!
# Names in scripts

The constants of a script are its sheets and its exports. Names of sheets are made from a counter,
and a template whose name is no identifier is exported under a name made from its position; neither
is compared with the names that templates have by themselves. A helper is imported if the code of
some template starts with its name, also where the code goes on with a longer name. Main result
`scope_iff`: these are the only ways in which a script declares a name twice or imports a helper
that it does not call. `name_declared_twice` is one of them.
-/
namespace TemplateStyles

/-- The name that a template can be exported under. -/
def Template.ownName? (t : Template) : Option String := t.name.filter Script.isIdentifier

/-- The name made from a position. -/
def positionName (index : Nat) : String := "style" ++ toString index

/-- The name of the helper that the template is tagged with. -/
def Template.helper (o : Options) (t : Template) : String :=
  match t.tag with
  | .styled _ => o.styledName
  | .css => o.cssName

/-- The name that the code starts with. -/
def CompiledTemplate.callee (ct : CompiledTemplate) : String :=
  String.ofList (ct.outcome.code.toList.takeWhile Script.isIdentifierPart)

namespace StyleModule

/-- The names of the declared sheets. -/
def declaredSheets (m : StyleModule) : List String :=
  m.templates.filterMap fun ct =>
    ct.outcome.hoisted.bind fun _ => ct.instructions.registration.map (·.id)

/-- The names of the exports. -/
def exportNames : Nat → List CompiledTemplate → List String
  | _, [] => []
  | index, ct :: cts => ct.exportName index :: exportNames (index + 1) cts

/-- All names that the script declares. -/
def declaredNames (m : StyleModule) : List String := m.declaredSheets ++ exportNames 0 m.templates

/-- The helpers that the code of some template calls. -/
def calledHelpers (o : Options) (m : StyleModule) : List String :=
  [o.styledName, o.cssName].filter fun name => m.templates.any (·.callee == name)

end StyleModule

/-! ## Code and its helper -/

namespace Template

variable {o : Options} {t : Template} {c : SheetCounter}

/-- Code is a call on the callee of the tag, or the template as it was written. -/
theorem code_outcome (o : Options) (t : Template) (i : Instructions) :
    (∃ callee members, Script.callee o t.tag = .ok callee ∧
      (t.outcome o i).code = Script.call callee members) ∨
      (t.outcome o i).code = t.literal o.styledName o.cssName := by
  rw [outcome]
  cases hcode : Script.replacement o t i with
  | error e => exact .inr rfl
  | ok code =>
    obtain ⟨-, _, _, callee, -, -, hcallee, rfl⟩ := Script.replacement_eq_ok_iff.1 hcode
    exact .inl ⟨callee, _, hcallee, rfl⟩

/-- The code of a template is the name of its helper, and does not go on as a name. -/
theorem exists_code_eq (o : Options) (t : Template) (c : SheetCounter) :
    ∃ d rest, Script.isIdentifierPart d = false ∧
      (t.compile o c).outcome.code.toList = (t.helper o).toList ++ d :: rest := by
  have hdot : ∀ callee members, ∃ rest,
      (Script.call callee members).toList = callee.toList ++ '.' :: rest := fun callee members =>
    ⟨"__withStyles(\x7b ".toList ++ (", ".intercalate members ++ " \x7d)").toList, by
      simp [Script.call]⟩
  rcases code_outcome o t (t.emission c).instructions with
    ⟨callee, members, hcallee, hcode⟩ | hcode
  · obtain ⟨rest, hrest⟩ := hdot callee members
    rw [compile, hcode, hrest, helper]
    revert hcallee
    unfold Script.callee
    cases t.tag with
    | css =>
      intro hcallee
      obtain rfl := Except.ok.inj hcallee
      exact ⟨'.', rest, by decide, rfl⟩
    | styled component =>
      dsimp only
      split
      · simp
      · intro hcallee
        obtain rfl := Except.ok.inj hcallee
        exact ⟨'(', (Text.trim component).toList ++ ')' :: '.' :: rest, by decide, by simp⟩
  · rw [compile, hcode, literal, helper]
    cases t.tag with
    | css => exact ⟨'\x60', (body t.parts t.expressions).toList ++ ['\x60'], by decide, by simp⟩
    | styled component =>
      exact ⟨'(', component.toList ++ ")\x60".toList ++ (body t.parts t.expressions).toList ++
        ['\x60'], by decide, by simp⟩

theorem callee_compile (h : Script.isIdentifier (t.helper o) = true) :
    (t.compile o c).callee = t.helper o := by
  obtain ⟨d, rest, hd, hcode⟩ := exists_code_eq o t c
  rw [CompiledTemplate.callee, hcode,
    List.takeWhile_append_of_pos fun _ => Script.isIdentifierPart_of_mem h,
    List.takeWhile_cons_of_neg (by simp [hd]), List.append_nil, String.ofList_toList]

theorem startsWith_compile_iff {name : String} (h : Script.isIdentifier name = true) :
    (t.compile o c).startsWith name = true ↔ name.toList <+: (t.helper o).toList := by
  obtain ⟨d, rest, hd, hcode⟩ := exists_code_eq o t c
  rw [CompiledTemplate.startsWith, List.isPrefixOf_iff_prefix, hcode]
  constructor
  · intro hfront
    rcases List.prefix_or_prefix_of_prefix hfront (List.prefix_append _ (d :: rest)) with
      hshort | ⟨later, hlater⟩
    · exact hshort
    · cases later with
      | nil => rw [← hlater, List.append_nil]
      | cons e later =>
        rw [← hlater, List.prefix_append_right_inj, List.cons_prefix_cons] at hfront
        have he : e ∈ name.toList := by rw [← hlater]; simp
        rw [hfront.1] at he
        simp [Script.isIdentifierPart_of_mem h he] at hd
  · exact fun hfront => hfront.trans (List.prefix_append _ _)

end Template

/-! ## Declared names -/

theorem positionName_injective {i j : Nat} (h : positionName i = positionName j) : i = j :=
  Text.Digit.repr_injective (by simpa [positionName] using h)

theorem positionName_ne_id (j : Nat) (c : SheetCounter) : positionName j ≠ c.id := by
  intro h
  have hstyle : (positionName j).toList = 's' :: ("tyle".toList ++ (toString j).toList) := by
    rw [positionName, String.toList_append]
    rfl
  have hid : c.id.toList = '_' :: ("_ks".toList ++ (toString c.used).toList) := by
    rw [SheetCounter.id, String.toList_append]
    rfl
  rw [h, hid] at hstyle
  exact absurd (List.cons.inj hstyle).1 (by decide)

theorem StyleModule.getElem?_exportNames (index : Nat) (cts : List CompiledTemplate) (j : Nat) :
    (exportNames index cts)[j]? = cts[j]?.map fun ct => ct.exportName (index + j) := by
  induction cts generalizing index j with
  | nil => rfl
  | cons ct cts ih =>
    cases j with
    | zero => rfl
    | succ j =>
      have hindex : index + 1 + j = index + (j + 1) := by omega
      rw [exportNames, List.getElem?_cons_succ, List.getElem?_cons_succ, ih, hindex]

/-- The lines of the exports, with their names. -/
theorem StyleModule.exportLines_eq (index : Nat) (cts : List CompiledTemplate) :
    exportLines index cts = String.join (List.zipWith
      (fun name ct => "\nexport const " ++ name ++ " = " ++ ct.outcome.code ++ ";\n")
      (exportNames index cts) cts) := by
  induction cts generalizing index with
  | nil => rfl
  | cons ct cts ih =>
    unfold exportLines exportNames
    rw [List.zipWith_cons_cons, String.join_cons, ih]

/-- What is declared for a template is the sheet of its registration. -/
theorem Template.declares_of_hoisted {o : Options} {t : Template} {c : SheetCounter}
    {declaration : String} (h : (t.compile o c).outcome.hoisted = some declaration) :
    ∃ r, (t.compile o c).instructions.registration = some r ∧ declares r.id declaration = true := by
  have hrewritten : (t.compile o c).outcome.isRewritten = true := by
    by_contra hkept
    rw [CompiledTemplate.hoisted_of_kept (Bool.eq_false_iff.2 hkept)] at h
    simp at h
  cases htakes : t.takesSheet with
  | true =>
    obtain ⟨object, callee, members, -, houtcome⟩ := outcome_of_takesSheet htakes hrewritten
    rw [houtcome, Outcome.hoisted, Script.sheetCode] at h
    obtain ⟨r, hr, hid⟩ := Option.map_eq_some_iff.1 (registration_of_takesSheet htakes)
    refine ⟨r, hr, ?_⟩
    rw [← Option.some.inj h, hid]
    exact (declares_eq_true_iff c.isIdentifier_id c.isIdentifier_id).2 rfl
  | false =>
    rw [(outcome_of_not_takesSheet htakes hrewritten).1] at h
    simp at h

theorem StyleModule.declaredSheets_sublist (m : StyleModule) :
    m.declaredSheets.Sublist (sheetIds m.templates) := by
  rw [declaredSheets, sheetIds]
  induction m.templates with
  | nil => exact .refl _
  | cons ct cts ih =>
    rw [List.filterMap_cons, List.filterMap_cons]
    cases ct.instructions.registration with
    | none => cases ct.outcome.hoisted <;> exact ih
    | some r =>
      cases ct.outcome.hoisted with
      | none => exact ih.cons r.id
      | some declaration => exact ih.cons_cons r.id

namespace Source

variable (o : Options) (file : String) (s : Source)

/-- The export at a position has the template's own name, or the one made from the position. -/
theorem getElem?_exportNames (j : Nat) :
    (StyleModule.exportNames 0 (s.compile o file).templates)[j]? =
      s.templates[j]?.map fun t => t.ownName?.getD (positionName j) := by
  rw [StyleModule.getElem?_exportNames, compile, getElem?_compileFrom, Option.map_map, Nat.zero_add]
  rfl

/-- The declared sheets are those of the declarations, in order. -/
theorem forall₂_declares : List.Forall₂ (fun id declaration => declares id declaration = true)
    (s.compile o file).declaredSheets (s.compile o file).hoisted := by
  have hrow : ∀ (ts : List Template) (c : SheetCounter),
      List.Forall₂ (fun id declaration => declares id declaration = true)
        (StyleModule.declaredSheets ⟨file, compileFrom o c ts⟩)
        (StyleModule.hoisted ⟨file, compileFrom o c ts⟩) := by
    intro ts
    induction ts with
    | nil => exact fun _ => .nil
    | cons t ts ih =>
      intro c
      rw [StyleModule.declaredSheets, StyleModule.hoisted, compileFrom, List.filterMap_cons,
        List.filterMap_cons]
      cases hhoisted : (t.compile o c).outcome.hoisted with
      | none => exact ih _
      | some declaration =>
        obtain ⟨r, hr, hdeclares⟩ := Template.declares_of_hoisted hhoisted
        rw [hr]
        exact .cons hdeclares (ih _)
  exact hrow s.templates .start

theorem nodup_declaredSheets : (s.compile o file).declaredSheets.Nodup :=
  (s.compile o file).declaredSheets_sublist.nodup (nodup_ids s.templates)

theorem positionName_not_mem_declaredSheets (j : Nat) :
    positionName j ∉ (s.compile o file).declaredSheets := by
  intro hmem
  have hid := (s.compile o file).declaredSheets_sublist.mem hmem
  rw [compile, ids_compileFrom] at hid
  obtain ⟨k, -, hk⟩ := List.mem_map.1 hid
  exact positionName_ne_id j _ hk.symm

/-- Own names are distinct if the names of templates are. -/
theorem ownName?_inj {ts : List Template} (hnames : (ts.filterMap (·.name)).Nodup) {i j : Nat}
    (hij : i < j) {t u : Template} (ht : ts[i]? = some t) (hu : ts[j]? = some u) {name : String}
    (hname : t.ownName? = some name) : u.ownName? ≠ some name := by
  intro hname'
  obtain ⟨hi, rfl⟩ := List.getElem?_eq_some_iff.1 ht
  obtain ⟨hj, rfl⟩ := List.getElem?_eq_some_iff.1 hu
  have hdistinct := List.pairwise_iff_getElem.1 (List.pairwise_filterMap.1 hnames) i j hi hj hij
  exact hdistinct name (Option.filter_eq_some_iff.1 hname).1 name
    (Option.filter_eq_some_iff.1 hname').1 rfl

/-- Names that templates have by themselves are neither those of declared sheets nor those made
from the positions of templates without such a name. -/
def OwnNamesFree : Prop :=
  ∀ t ∈ s.templates, ∀ name, t.ownName? = some name →
    name ∉ (s.compile o file).declaredSheets ∧
      ∀ j u, s.templates[j]? = some u → u.ownName? = none → name ≠ positionName j

variable {o file s}

theorem OwnNamesFree.exportName_ne (hfree : s.OwnNamesFree o file)
    (hnames : (s.templates.filterMap (·.name)).Nodup) {i j : Nat} (hij : i < j) {t u : Template}
    (ht : s.templates[i]? = some t) (hu : s.templates[j]? = some u) :
    t.ownName?.getD (positionName i) ≠ u.ownName?.getD (positionName j) := by
  have hfirst := hfree t (List.mem_of_getElem? ht)
  have hsecond := hfree u (List.mem_of_getElem? hu)
  cases hname : t.ownName? with
  | some name =>
    cases hname' : u.ownName? with
    | some name' =>
      rintro rfl
      exact ownName?_inj hnames hij ht hu hname hname'
    | none => exact (hfirst name hname).2 j u hu hname'
  | none =>
    cases hname' : u.ownName? with
    | some name' => exact ((hsecond name' hname').2 i t ht hname).symm
    | none => exact fun heq => hij.ne (positionName_injective heq)

/-- **A script declares no name twice** just if no template's own name is taken. -/
theorem nodup_declaredNames_iff (hnames : (s.templates.filterMap (·.name)).Nodup) :
    (s.compile o file).declaredNames.Nodup ↔ s.OwnNamesFree o file := by
  rw [StyleModule.declaredNames, List.nodup_append]
  constructor
  · rintro ⟨-, hexports, hdisjoint⟩ t ht name hname
    obtain ⟨i, hi⟩ := List.getElem?_of_mem ht
    have hexport := s.getElem?_exportNames o file i
    rw [hi, Option.map_some, hname, Option.getD_some] at hexport
    refine ⟨fun hmem => hdisjoint name hmem name (List.mem_of_getElem? hexport) rfl, ?_⟩
    rintro j u hj hnone rfl
    have hexport' := s.getElem?_exportNames o file j
    rw [hj, Option.map_some, hnone, Option.getD_none, ← hexport] at hexport'
    have hij := (List.getElem?_inj (List.getElem?_eq_some_iff.1 hexport).1 hexports).1 hexport'.symm
    rw [hij, hj] at hi
    rw [Option.some.inj hi, hname] at hnone
    exact absurd hnone (by simp)
  · intro hfree
    refine ⟨s.nodup_declaredSheets o file, ?_, ?_⟩
    · refine List.nodup_iff_getElem?_ne_getElem?.2 fun i j hij hj heq => ?_
      obtain ⟨name, hname⟩ : ∃ name, (StyleModule.exportNames 0
          (s.compile o file).templates)[j]? = some name := ⟨_, List.getElem?_eq_getElem hj⟩
      rw [hname, getElem?_exportNames, Option.map_eq_some_iff] at heq
      rw [getElem?_exportNames, Option.map_eq_some_iff] at hname
      obtain ⟨t, ht, rfl⟩ := heq
      obtain ⟨u, hu, hname⟩ := hname
      exact hfree.exportName_ne hnames hij ht hu hname.symm
    · intro id hid name hname heq
      obtain ⟨j, hj⟩ := List.getElem?_of_mem hname
      rw [getElem?_exportNames, Option.map_eq_some_iff] at hj
      obtain ⟨t, ht, rfl⟩ := hj
      cases hown : t.ownName? with
      | some name =>
        rw [hown, Option.getD_some] at heq
        exact (hfree t (List.mem_of_getElem? ht) name hown).1 (heq ▸ hid)
      | none =>
        rw [hown, Option.getD_none] at heq
        exact s.positionName_not_mem_declaredSheets o file j (heq ▸ hid)

/-! ## Imported helpers -/

/-- What some compiled template is like, by what the templates are like. -/
theorem any_compileFrom {p : CompiledTemplate → Bool} {P : Template → Prop}
    (h : ∀ t c, p (t.compile o c) = true ↔ P t) (c : SheetCounter) (ts : List Template) :
    (compileFrom o c ts).any p = true ↔ ∃ t ∈ ts, P t := by
  induction ts generalizing c with
  | nil => simp [compileFrom]
  | cons t ts ih =>
    rw [compileFrom, List.any_cons, Bool.or_eq_true, h, ih]
    simp

/-- **The imported helpers are those that are called** just if no helper that is called starts with
the name of one that is not. -/
theorem helpers_eq_iff (hstyled : Script.isIdentifier o.styledName = true)
    (hcss : Script.isIdentifier o.cssName = true) :
    (s.compile o file).helpers o = (s.compile o file).calledHelpers o ↔
      ∀ name ∈ [o.styledName, o.cssName], ∀ t ∈ s.templates,
        name.toList <+: (t.helper o).toList → ∃ u ∈ s.templates, u.helper o = name := by
  have hidentifier : ∀ name ∈ [o.styledName, o.cssName], Script.isIdentifier name = true := by
    simp [hstyled, hcss]
  have hhelper : ∀ t : Template, Script.isIdentifier (t.helper o) = true := by
    intro t
    unfold Template.helper
    split <;> assumption
  have hstarts : ∀ name ∈ [o.styledName, o.cssName],
      (s.compile o file).templates.any (·.startsWith name) = true ↔
        ∃ t ∈ s.templates, name.toList <+: (t.helper o).toList := by
    intro name hname
    exact any_compileFrom (p := fun ct => ct.startsWith name)
      (fun t c => Template.startsWith_compile_iff (hidentifier name hname)) .start s.templates
  have hcalled : ∀ name, (s.compile o file).templates.any (·.callee == name) = true ↔
      ∃ t ∈ s.templates, t.helper o = name := by
    intro name
    exact any_compileFrom (p := fun ct => ct.callee == name)
      (fun t c => by rw [Template.callee_compile (hhelper t), beq_iff_eq]) .start s.templates
  rw [StyleModule.helpers, StyleModule.calledHelpers]
  constructor
  · intro heq name hname t ht hfront
    have hfilter := congrArg (name ∈ ·) heq
    simp only [List.mem_filter, hname, true_and, hcalled, eq_iff_iff] at hfilter
    exact hfilter.1 ((hstarts name hname).2 ⟨t, ht, hfront⟩)
  · intro hcovered
    refine List.filter_congr fun name hname => Bool.eq_iff_iff.2 ?_
    rw [hstarts name hname, hcalled]
    constructor
    · rintro ⟨t, ht, hfront⟩
      exact hcovered name hname t ht hfront
    · rintro ⟨t, ht, rfl⟩
      exact ⟨t, ht, List.prefix_rfl⟩

/-- Only `cssStyled` is called. -/
example :
    let s : Source := ⟨[⟨some "Card", .styled "View", ["flex: 1;"], []⟩]⟩
    let o : Options := { Options.standard with styledName := "cssStyled" }
    let m := s.compile o "card.json"
    m.helpers o = ["cssStyled", "css"] ∧ m.calledHelpers o = ["cssStyled"] := by
  decide +kernel

/-- **How the names of a script can go wrong.** The declared names are those of the sheets and of
the exports. If all names of templates are distinct, a name is
declared twice just if an own name of a template is the one of a declared sheet, or the one made
from the position of another template. The imported helpers are those that are called, unless a
helper that is called starts with the name of one that is not. -/
theorem scope_iff (o : Options) (file : String) (s : Source)
    (hnames : (s.templates.filterMap (·.name)).Nodup)
    (hstyled : Script.isIdentifier o.styledName = true)
    (hcss : Script.isIdentifier o.cssName = true) :
    let m := s.compile o file
    List.Forall₂ (fun id declaration => declares id declaration = true)
        m.declaredSheets m.hoisted ∧
      StyleModule.exportLines 0 m.templates = String.join (List.zipWith
        (fun name ct => "\nexport const " ++ name ++ " = " ++ ct.outcome.code ++ ";\n")
        (StyleModule.exportNames 0 m.templates) m.templates) ∧
      (m.declaredNames.Nodup ↔ ∀ t ∈ s.templates, ∀ name, t.ownName? = some name →
        name ∉ m.declaredSheets ∧
          ∀ j u, s.templates[j]? = some u → u.ownName? = none → name ≠ positionName j) ∧
      (m.helpers o = m.calledHelpers o ↔ ∀ name ∈ [o.styledName, o.cssName], ∀ t ∈ s.templates,
        name.toList <+: (t.helper o).toList → ∃ u ∈ s.templates, u.helper o = name) :=
  ⟨forall₂_declares o file s, StyleModule.exportLines_eq 0 _, nodup_declaredNames_iff hnames,
    helpers_eq_iff hstyled hcss⟩

/-- A template has the name that is made for the one behind it; both call the same helper. -/
theorem scope_iff_position :
    let s : Source := ⟨[⟨some "style1", .css, ["opacity: 0.5;"], []⟩,
      ⟨none, .css, ["flex: 1;"], []⟩]⟩
    let m := s.compile .standard "list.json"
    ¬ m.declaredNames.Nodup ∧ m.helpers .standard = m.calledHelpers .standard := by
  intro s m
  obtain ⟨-, -, hdeclared, hhelpers⟩ :=
    scope_iff .standard "list.json" s (by decide) (by decide) (by decide)
  constructor
  · intro hnodup
    exact (hdeclared.1 hnodup _ (List.mem_cons_self ..) "style1" (by decide)).2 1 _ rfl (by decide)
      (by decide)
  · exact hhelpers.2 (by decide)

/-- All names of templates and helpers are distinct, and an export is declared twice. -/
theorem name_declared_twice :
    let s : Source := ⟨[⟨some "style1", .css, ["opacity: 0.5;"], []⟩,
      ⟨none, .css, ["flex: 1;"], []⟩]⟩
    let o : Options := .standard
    (s.templates.filterMap (·.name)).Nodup ∧
      (∀ name ∈ [o.sheetName, o.styledName, o.cssName], Script.isIdentifier name = true) ∧
      [o.sheetName, o.styledName, o.cssName].Nodup ∧
      StyleModule.exportNames 0 (s.compile o "list.json").templates = ["style1", "style1"] := by
  decide +kernel

end Source

end TemplateStyles
