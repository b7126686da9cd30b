import TemplateStyles.Render.Element
/-!
# Rendering without evaluation

A component whose metadata have neither patch nor attrs renders with its registered styles alone.
Main result `renderFixed_agrees`: the element is the one that evaluation under a theme would have
given.
-/
namespace TemplateStyles

namespace Props

theorem get?_forwarded (p : Props) (k : String) :
    p.forwarded.get? k = if isKept k then none else p.get? k := by
  rw [forwarded, OrderedMap.get?_filter]
  cases isKept k <;> cases p.get? k <;> rfl

theorem get?_forwarded_eraseSwap (p : Props) (k : String) :
    (p.forwarded.eraseSwap styleName).get? k =
      if k = styleName ∨ isKept k then none else p.get? k := by
  rw [OrderedMap.get?_eraseSwap, get?_forwarded]
  by_cases hs : k = styleName
  · rw [if_pos hs.symm, if_pos (.inl hs)]
  · rw [if_neg (Ne.symm hs)]
    by_cases hk : isKept k = true
    · rw [if_pos hk, if_pos (.inr hk)]
    · rw [if_neg hk, if_neg (not_or.2 ⟨hs, hk⟩)]

/-- Props without a name to keep are forwarded as they are, in their order. -/
theorem forwardedIfNeeded_eq (p : Props) : p.forwardedIfNeeded = p.forwarded := by
  unfold forwardedIfNeeded
  split
  · rename_i h
    simp only [Bool.and_eq_true, Bool.not_eq_true', hasTransient, List.any_eq_false,
      OrderedMap.contains, Option.isSome_eq_false_iff, Option.isNone_iff_eq_none,
      OrderedMap.get?_eq_none_iff] at h
    obtain ⟨⟨htransient, has⟩, htheme⟩ := h
    refine OrderedMap.ext_entries (List.filter_eq_self.2 fun e he => ?_).symm
    have hmem : e.1 ∈ p.keys := List.mem_map_of_mem he
    have h1 : isTransient e.1 = false := by simpa using htransient e.1 hmem
    have h2 : e.1 ≠ asName := fun h => has (h ▸ hmem)
    have h3 : e.1 ≠ themeName := fun h => htheme (h ▸ hmem)
    simp [isKept, h1, h2, h3]
  · rfl

end Props

namespace StyledComponent

open Props

/-! ## The evaluated path without patch and attrs -/

theorem propsWithAttrs_of_none {c : StyledComponent} (h : c.merged.attrs = none) (t : Theme)
    (p : Props) : c.propsWithAttrs t p = attrsProps t p := by
  rw [propsWithAttrs, h]
  rfl

theorem get?_attrsProps (t : Theme) (p : Props) (k : String) :
    (attrsProps t p).get? k =
      if k = themeName then some t.toJson
      else if k = styleName ∨ k = asName then none else p.get? k := by
  rw [attrsProps, OrderedMap.get?_insert, OrderedMap.get?_eraseSwap, OrderedMap.get?_eraseSwap]
  by_cases htheme : k = themeName
  · rw [if_pos htheme.symm, if_pos htheme]
  rw [if_neg (Ne.symm htheme), if_neg htheme]
  by_cases hstyle : k = styleName
  · rw [if_pos hstyle.symm, if_pos (.inl hstyle)]
  rw [if_neg (Ne.symm hstyle)]
  by_cases has : k = asName
  · rw [if_pos has.symm, if_pos (.inr has)]
  · rw [if_neg (Ne.symm has), if_neg (by simp [hstyle, has])]

theorem get?_renderFixed_props (c : StyledComponent) (p : Props) (k : String) :
    (c.renderFixed p).props.get? k =
      if k = styleName ∨ isKept k then none else p.get? k := by
  rw [renderFixed, forwardedIfNeeded_eq, get?_forwarded_eraseSwap]

theorem get?_renderEvaluated_props (c : StyledComponent) (t : Theme) (p : Props) (k : String) :
    (c.renderEvaluated t p).props.get? k =
      if k = styleName ∨ isKept k then none else (c.propsWithAttrs t p).get? k := by
  rw [renderEvaluated, get?_forwarded_eraseSwap, patchProps, OrderedMap.get?_eraseSwap]
  by_cases hk : k = styleName ∨ isKept k = true
  · rw [if_pos hk, if_pos hk]
  · have has : asName ≠ k := fun h => hk (.inr (h ▸ rfl))
    rw [if_neg hk, if_neg hk, if_neg has]

/-- Without attrs only the caller can name another component. An `as` that is no text leaves the
base on both paths. -/
theorem evaluatedTarget_of_none {c : StyledComponent} (h : c.merged.attrs = none) (t : Theme)
    (p : Props) : c.evaluatedTarget t p = c.target (p.get? asName) none := by
  have has : (c.propsWithAttrs t p).get? asName = none := by
    rw [propsWithAttrs_of_none h, get?_attrsProps]; rfl
  rw [evaluatedTarget, has]
  cases p.get? asName with
  | none => rfl
  | some v => cases v <;> rfl

theorem styleList_without_patch (m : Metadata) {external : Option Json}
    (h : external ∈ [none, some .null, some (.bool false)]) :
    styleList m.compiled m.styleKeys none external = m.staticStyles.getD [] := by
  have hext : (external.map externalEntries).getD [] = [] := by
    simp only [List.mem_cons, List.not_mem_nil, or_false] at h
    rcases h with rfl | rfl | rfl <;> rfl
  rw [styleList, hext, patchEntries, List.append_nil, List.append_nil, Metadata.staticStyles]
  split
  · rename_i hnone
    rcases hnone with hc | hk
    · rw [Option.isNone_iff_eq_none.1 hc]; rfl
    · rw [hk]; cases m.compiled <;> rfl
  · rfl

/-- **The two ways of rendering agree.** If neither patch nor attrs are there and the caller passes
no style, the element that is rendered without looking at the theme is the one that evaluation
gives: the same target, the same props up to their order, the same style list. -/
theorem renderFixed_agrees (c : StyledComponent) (p : Props) (t : Theme)
    (hpatch : c.merged.patch = none) (hattrs : c.merged.attrs = none)
    (hstyle : p.get? styleName ∈ [none, some .null, some (.bool false)]) :
    c.render p (some t) = .ok (c.renderFixed p) ∧
      (c.renderFixed p).target = (c.renderEvaluated t p).target ∧
      (c.renderFixed p).props.SameAs (c.renderEvaluated t p).props ∧
      (c.renderFixed p).style.getD [] = (c.renderEvaluated t p).style.getD [] := by
  have hexternal : hasExternalStyle p = false := by
    simp only [List.mem_cons, List.not_mem_nil, or_false] at hstyle
    unfold hasExternalStyle
    rcases hstyle with h | h | h <;> rw [h]
  have hfixed : c.isFixed p = true := by simp [isFixed, hpatch, hattrs, hexternal]
  have hprops := propsWithAttrs_of_none hattrs t p
  refine ⟨by rw [render, if_pos hfixed], ?_, fun k => ?_, ?_⟩
  · exact (evaluatedTarget_of_none hattrs t p).symm
  · rw [get?_renderFixed_props, get?_renderEvaluated_props, hprops, get?_attrsProps]
    by_cases hs : k = styleName
    · simp [hs]
    by_cases hk : isKept k = true
    · simp [hk]
    · have htheme : k ≠ themeName := fun h => hk (h ▸ rfl)
      have has : k ≠ asName := fun h => hk (h ▸ rfl)
      simp [hs, hk, htheme, has]
  · have hnopatch : c.merged.evaluatePatch (c.patchProps t p) = none := by
      rw [Metadata.evaluatePatch, hpatch]; rfl
    simp only [renderFixed, renderEvaluated, hnopatch, styleList_without_patch c.merged hstyle,
      Option.getD_some]

/-- An `as` that is no text, a style of `false` and a name missing from the registered styles. -/
theorem renderFixed_agrees_falseStyle :
    let base : Component :=
      .styled (.host "View") ⟨some (.ofList [("base", 1)]), some ["base"], none, none, false⟩
    let c : StyledComponent :=
      ⟨base, ⟨some (.ofList [("extra", 2)]), some ["extra", "missing"], none, none, false⟩⟩
    let p : Props := .ofList [("as", .num (.int 3)), ("$tone", .str "red"), ("id", .str "a"),
      ("style", .bool false), ("theme", .null)]
    let t : Theme := ⟨.empty, .empty, .empty, .empty, .empty, .empty⟩
    c.merged.patch = none ∧ c.merged.attrs = none ∧ p.get? styleName = some (.bool false) ∧
      c.render p (some t) = .ok (c.renderFixed p) ∧
      (c.renderEvaluated t p).target = "Styled(View)" ∧
      (c.renderEvaluated t p).props.get? "id" = some (.str "a") ∧
      (c.renderEvaluated t p).style.getD [] = [.registered 1, .registered 2] := by
  intro base c p t
  have hstyle : p.get? styleName = some (.bool false) := by decide
  obtain ⟨hrender, htarget, hprops, hlist⟩ :=
    renderFixed_agrees c p t rfl rfl (by rw [hstyle]; simp)
  refine ⟨rfl, rfl, hstyle, hrender, ?_, ?_, ?_⟩
  · rw [← htarget]; decide
  · rw [← hprops]; decide
  · rw [← hlist]; decide

end StyledComponent

end TemplateStyles
