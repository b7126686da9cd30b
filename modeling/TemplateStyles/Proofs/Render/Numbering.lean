import TemplateStyles.Proofs.Render.LateTemplate
/-!
# The numbers of registered styles

Styles get the numbers behind those that are registered already (`numbered`), and nothing is ever
taken out of a registry. So the numbers that a row of calls hands out are all different
(`nodup_handedOut`), and whatever is called later, a number stands for the style that was registered
with it and a style list for what it stood for (`resolve_runAll`). Main result `handedOut_stable`.
-/
namespace TemplateStyles

namespace SheetRegistry

/-! ## One row of named styles -/

/-- Named styles with the numbers that they get behind `n` others. -/
def numbered (n : Nat) (styles : List (String × StyleObject)) :
    List (String × (Nat × StyleObject)) :=
  (styles.zipIdx (n + 1)).map fun e => (e.1.1, e.2, e.1.2)

theorem mem_numbered_iff {n id : Nat} {styles : List (String × StyleObject)} {name : String}
    {style : StyleObject} : (name, id, style) ∈ numbered n styles ↔
      n < id ∧ styles[id - (n + 1)]? = some (name, style) := by
  rw [numbered, List.mem_map]
  constructor
  · rintro ⟨⟨⟨name', style'⟩, id'⟩, hmem, heq⟩
    cases heq
    exact List.mk_mem_zipIdx_iff_le_and_getElem?_sub.1 hmem
  · intro h
    exact ⟨((name, style), id), List.mk_mem_zipIdx_iff_le_and_getElem?_sub.2 h, rfl⟩

theorem styles_createInto (r : SheetRegistry) (named : CompiledStyles)
    (styles : List (String × StyleObject)) :
    (r.createInto named styles).1.styles = r.styles ++ styles.map Prod.snd := by
  induction styles generalizing r named with
  | nil => simp [createInto]
  | cons e rest ih => rw [createInto, ih]; simp [add]

theorem numbers_createInto (r : SheetRegistry) (named : CompiledStyles)
    (styles : List (String × StyleObject)) : (r.createInto named styles).2 =
      named.insertAll ((numbered r.size styles).map fun e => (e.1, e.2.1)) := by
  induction styles generalizing r named with
  | nil => rfl
  | cons e rest ih =>
    have hsize : (r.add e.2).1.size = r.size + 1 := by simp [add, size]
    rw [createInto, ih, hsize]
    rfl

theorem styles_create (r : SheetRegistry) (styles : List (String × StyleObject)) :
    (r.create styles).1.styles = r.styles ++ styles.map Prod.snd := r.styles_createInto .empty styles

/-- Two styles with one name are both numbered, and the name has the number of the later one. -/
theorem get?_numbers_create (r : SheetRegistry) (styles : List (String × StyleObject))
    (name : String) : (r.create styles).2.get? name =
      (Entries.find? name (numbered r.size styles).reverse).map Prod.fst := by
  rw [create, numbers_createInto, ← OrderedMap.ofList, OrderedMap.get?_ofList, ← List.map_reverse]
  exact Entries.find?_map_snd Prod.fst name _

theorem get?_styles_numbered (n : Nat) (styles : List (String × StyleObject)) (name : String) :
    (OrderedMap.ofList styles).get? name =
      (Entries.find? name (numbered n styles).reverse).map Prod.snd := by
  have hstyles : styles = (numbered n styles).map fun e => (e.1, e.2.2) := by
    rw [numbered, List.map_map]
    exact (List.zipIdx_map_fst (n + 1) styles).symm
  rw [OrderedMap.get?_ofList]
  conv_lhs => rw [hstyles, ← List.map_reverse]
  exact Entries.find?_map_snd Prod.snd name _

/-- **What a name's number stands for**: the style that was registered under the name, the last one
if there were several. -/
theorem get?_create {r : SheetRegistry} {styles : List (String × StyleObject)} {name : String}
    {id : Nat} (h : (r.create styles).2.get? name = some id) :
    r.size < id ∧ id ≤ (r.create styles).1.size ∧
      ∃ style, (OrderedMap.ofList styles).get? name = some style ∧
        (r.create styles).1.get? id = some style := by
  rw [get?_numbers_create, Option.map_eq_some_iff] at h
  obtain ⟨⟨id, style⟩, hfind, rfl⟩ := h
  have hmem := List.mem_reverse.1 (Entries.mem_of_find? hfind)
  obtain ⟨hlow, hstyle⟩ := mem_numbered_iff.1 hmem
  have hpos : id ≠ 0 := by omega
  have hget : (r.create styles).1.get? id = some style := by
    rw [get?, if_neg hpos, styles_create, List.getElem?_append_right (by rw [size] at hlow; omega),
      List.getElem?_map]
    rw [size, ← Nat.sub_sub, Nat.sub_right_comm] at hstyle
    rw [hstyle, Option.map_some]
  refine ⟨hlow, ?_, style, ?_, hget⟩
  · rw [get?, if_neg hpos] at hget
    have := (List.getElem?_eq_some_iff.1 hget).1
    rw [size]
    omega
  · rw [get?_styles_numbered r.size, hfind, Option.map_some]

/-- The names of one row have different numbers. -/
theorem nodup_values_create (r : SheetRegistry) (styles : List (String × StyleObject)) :
    (r.create styles).2.values.Nodup := by
  refine (List.Nodup.of_map _ (r.create styles).2.nodup).map_on ?_
  rintro ⟨name, id⟩ he ⟨name', id'⟩ he' (rfl : id = id')
  have hmem : ∀ {name : String}, (name, id) ∈ (r.create styles).2.entries →
      ∃ style, styles[id - (r.size + 1)]? = some (name, style) := by
    intro name he
    have hget := OrderedMap.get?_eq_some_iff.2 he
    rw [get?_numbers_create, Option.map_eq_some_iff] at hget
    obtain ⟨⟨id, style⟩, hfind, rfl⟩ := hget
    exact ⟨style, (mem_numbered_iff.1 (List.mem_reverse.1 (Entries.mem_of_find? hfind))).2⟩
  obtain ⟨style, hstyle⟩ := hmem he
  obtain ⟨style', hstyle'⟩ := hmem he'
  rw [hstyle, Option.some.injEq, Prod.mk.injEq] at hstyle'
  rw [hstyle'.1]

/-! ## Growing registries -/

/-- What is registered behind the others does not change what their numbers stand for. -/
theorem get?_of_append {r r' : SheetRegistry} {added : List StyleObject}
    (h : r'.styles = r.styles ++ added) {id : Nat} (hid : id ≤ r.size) :
    r'.get? id = r.get? id := by
  unfold get?
  split
  · rfl
  · rw [h, List.getElem?_append_left (by rw [size] at hid; omega)]

/-- A style list is resolved through the styles that its entries stand for. -/
theorem resolve_congr {r r' : SheetRegistry} {list : List StyleEntry}
    (h : ∀ id, .registered id ∈ list → r'.get? id = r.get? id) :
    r'.resolve list = r.resolve list := by
  have hstyle : ∀ e ∈ list, r'.style? e = r.style? e := by
    intro e he
    cases e with
    | registered id => exact h id he
    | inlined style => rfl
  rw [resolve, resolve, flatten, flatten, List.filterMap_congr hstyle]

end SheetRegistry

/-! ## Calls on a registry -/

/-- What registers styles: named ones, or the fixed properties of a template that is read late. -/
inductive RegistryCall where
  | create (styles : List (String × StyleObject))
  | template (t : LateTemplate)

namespace RegistryCall

/-- The styles that a call registers under names. -/
def styles : RegistryCall → List (String × StyleObject)
  | create styles => styles
  | template t =>
    if t.block.rule.static.isEmpty then [] else [(baseKey, StyleMap.toJson t.block.rule.static)]

/-- The registry after a call. -/
def run (r : SheetRegistry) : RegistryCall → SheetRegistry
  | create styles => (r.create styles).1
  | template t => (t.metadata r).2

/-- The numbers that a call hands out, by name. -/
def numbers (r : SheetRegistry) : RegistryCall → CompiledStyles
  | create styles => (r.create styles).2
  | template t => (t.metadata r).1.compiled.getD .empty

/-- A template registers its style as named styles are registered. -/
theorem run_numbers_eq (r : SheetRegistry) (c : RegistryCall) :
    (c.run r, c.numbers r) = r.create c.styles := by
  cases c with
  | create styles => rfl
  | template t =>
    have hrule : t.block.rule.misplaced = [] := t.misplaced_rule
    rw [run, numbers, styles, LateTemplate.metadata, Metadata.ofInstructions, LateTemplate.emission,
      StyleRule.registration_emit hrule, registration?]
    by_cases hempty : t.block.rule.static.isEmpty = true
    · simp only [hempty, if_true]
      rfl
    · simp only [hempty]
      rfl

theorem run_eq (r : SheetRegistry) (c : RegistryCall) : c.run r = (r.create c.styles).1 :=
  congrArg Prod.fst (run_numbers_eq r c)

theorem numbers_eq (r : SheetRegistry) (c : RegistryCall) : c.numbers r = (r.create c.styles).2 :=
  congrArg Prod.snd (run_numbers_eq r c)

/-! ## Rows of calls -/

/-- The registry after a row of calls. -/
def runAll (r : SheetRegistry) (calls : List RegistryCall) : SheetRegistry := calls.foldl run r

/-- The numbers that a row of calls hands out, in order. -/
def handedOut (r : SheetRegistry) : List RegistryCall → List Nat
  | [] => []
  | c :: calls => (c.numbers r).values ++ handedOut (c.run r) calls

theorem runAll_append (r : SheetRegistry) (calls more : List RegistryCall) :
    runAll r (calls ++ more) = runAll (runAll r calls) more := List.foldl_append

/-- **Nothing is taken out of a registry.** -/
theorem exists_styles_runAll (r : SheetRegistry) (calls : List RegistryCall) :
    ∃ added, (runAll r calls).styles = r.styles ++ added := by
  induction calls generalizing r with
  | nil => exact ⟨[], (List.append_nil _).symm⟩
  | cons c calls ih =>
    obtain ⟨added, hadded⟩ := ih (c.run r)
    refine ⟨c.styles.map Prod.snd ++ added, ?_⟩
    have hcons : runAll r (c :: calls) = runAll (c.run r) calls := rfl
    rw [hcons, hadded, run_eq, SheetRegistry.styles_create, List.append_assoc]

theorem size_le_runAll (r : SheetRegistry) (calls : List RegistryCall) :
    r.size ≤ (runAll r calls).size := by
  obtain ⟨added, hadded⟩ := exists_styles_runAll r calls
  rw [SheetRegistry.size, SheetRegistry.size, hadded, List.length_append]
  exact Nat.le_add_right ..

theorem get?_runAll {r : SheetRegistry} {id : Nat} (h : id ≤ r.size) (calls : List RegistryCall) :
    (runAll r calls).get? id = r.get? id := by
  obtain ⟨added, hadded⟩ := exists_styles_runAll r calls
  exact SheetRegistry.get?_of_append hadded h

/-- One call hands out numbers of styles that it registers itself. -/
theorem bounds_of_mem_values {r : SheetRegistry} {c : RegistryCall} {id : Nat}
    (h : id ∈ (c.numbers r).values) : r.size < id ∧ id ≤ (c.run r).size := by
  obtain ⟨⟨name, id⟩, he, rfl⟩ := List.mem_map.1 h
  rw [numbers_eq] at he
  obtain ⟨hlow, hhigh, -⟩ := SheetRegistry.get?_create (OrderedMap.get?_eq_some_iff.2 he)
  rw [run_eq]
  exact ⟨hlow, hhigh⟩

/-- So does a row of calls. -/
theorem bounds_of_mem_handedOut {r : SheetRegistry} {calls : List RegistryCall} {id : Nat}
    (h : id ∈ handedOut r calls) : r.size < id ∧ id ≤ (runAll r calls).size := by
  induction calls generalizing r with
  | nil => simp [handedOut] at h
  | cons c calls ih =>
    have hrun := size_le_runAll (c.run r) calls
    have hcons : runAll r (c :: calls) = runAll (c.run r) calls := rfl
    rw [hcons]
    rcases List.mem_append.1 h with h | h
    · obtain ⟨hlow, hhigh⟩ := bounds_of_mem_values h
      exact ⟨hlow, hhigh.trans hrun⟩
    · obtain ⟨hlow, hhigh⟩ := ih h
      have hstep := size_le_runAll r [c]
      exact ⟨Nat.lt_of_le_of_lt hstep hlow, hhigh⟩

/-- **No number is handed out twice.** -/
theorem nodup_handedOut (r : SheetRegistry) (calls : List RegistryCall) :
    (handedOut r calls).Nodup := by
  induction calls generalizing r with
  | nil => exact List.nodup_nil
  | cons c calls ih =>
    rw [handedOut, List.nodup_append]
    refine ⟨?_, ih _, fun id hid id' hid' => ?_⟩
    · rw [numbers_eq]
      exact r.nodup_values_create c.styles
    · have hhigh := (bounds_of_mem_values hid).2
      have hlow := (bounds_of_mem_handedOut hid').1
      omega

/-- **A number keeps standing for the style that it was handed out for.** -/
theorem get?_runAll_of_numbers {r : SheetRegistry} {c : RegistryCall} {name : String} {id : Nat}
    (h : (c.numbers r).get? name = some id) (later : List RegistryCall) :
    ∃ style, (OrderedMap.ofList c.styles).get? name = some style ∧
      (runAll r (c :: later)).get? id = some style := by
  rw [numbers_eq] at h
  obtain ⟨-, hhigh, style, hstyle, hget⟩ := SheetRegistry.get?_create h
  rw [← run_eq] at hhigh hget
  exact ⟨style, hstyle, (get?_runAll hhigh later).trans hget⟩

/-- **A style list of numbers that were handed out resolves to the same style** after any further
calls. -/
theorem resolve_runAll {r : SheetRegistry} {calls : List RegistryCall} {list : List StyleEntry}
    (h : ∀ id, .registered id ∈ list → id ∈ handedOut r calls) (later : List RegistryCall) :
    (runAll r (calls ++ later)).resolve list = (runAll r calls).resolve list := by
  refine SheetRegistry.resolve_congr fun id hid => ?_
  rw [runAll_append]
  exact get?_runAll (bounds_of_mem_handedOut (h id hid)).2 later

/-- **Numbers of styles are stable.** As long as the styles can be counted in 32 bits, the numbers
that calls on one registry hand out are different from each other and from zero, and fit in 32 bits.
Each stands for the style that was registered under its name, the last one if there were several,
when it is handed out and after all calls that follow. A style list of numbers that were handed out
at some point resolves to what it resolved to then. -/
theorem handedOut_stable (calls : List RegistryCall)
    (h : (runAll .empty calls).size < UInt32.size) :
    (handedOut .empty calls).Nodup ∧
    (∀ id ∈ handedOut .empty calls, id ≠ 0 ∧ id < UInt32.size) ∧
    (∀ before c next later, calls = before ++ c :: (next ++ later) →
      ∀ name id, (c.numbers (runAll .empty before)).get? name = some id →
        ∃ style, (OrderedMap.ofList c.styles).get? name = some style ∧
          (runAll .empty (before ++ c :: next)).get? id = some style) ∧
    ∀ before later, calls = before ++ later →
      ∀ list, (∀ id, .registered id ∈ list → id ∈ handedOut .empty before) →
        (runAll .empty calls).resolve list = (runAll .empty before).resolve list := by
  refine ⟨nodup_handedOut _ calls, fun id hid => ?_, ?_, ?_⟩
  · obtain ⟨hlow, hhigh⟩ := bounds_of_mem_handedOut hid
    omega
  · rintro before c next later - name id hid
    rw [runAll_append]
    exact get?_runAll_of_numbers hid next
  · rintro before later rfl list hlist
    exact resolve_runAll hlist later

/-- A name that is used twice in one call, a template without fixed properties and one with some. -/
theorem handedOut_stable_repeated :
    let flex (n : Int) : StyleObject := .ofList [("flex", .num (.int n))]
    let named : RegistryCall := .create [("a", flex 1), ("b", flex 2), ("a", flex 3)]
    let later : List RegistryCall :=
      [.template ⟨["color: ", ""], [.value .null]⟩, .template ⟨["flex: 4"], []⟩]
    let ids := handedOut .empty (named :: later)
    ids = [3, 2, 4] ∧ ids.Nodup ∧
      (runAll .empty (named :: later)).get? 3 = some (flex 3) ∧
      (runAll .empty (named :: later)).resolve [.registered 3, .registered 2] = flex 2 := by
  intro flex named later ids
  have hsize : (runAll .empty (named :: later)).size < UInt32.size := by decide +kernel
  obtain ⟨hnodup, -, hstyle, hresolve⟩ := handedOut_stable (named :: later) hsize
  refine ⟨by decide +kernel, hnodup, ?_, ?_⟩
  · obtain ⟨style, hlast, hget⟩ := hstyle [] named later [] (by simp) "a" 3 (by decide +kernel)
    exact hget.trans (hlast.symm.trans (by decide +kernel))
  · have hlist : ∀ id, .registered id ∈ [.registered 3, StyleEntry.registered 2] →
        id ∈ handedOut .empty [named] := by
      have hfirst : handedOut .empty [named] = [3, 2] := by decide +kernel
      simp [hfirst]
    exact (hresolve [named] later rfl _ hlist).trans (by decide +kernel)

end RegistryCall

end TemplateStyles
