import TemplateStyles.Proofs.OrderedMap.Merging
import TemplateStyles.Proofs.Render.Forwarding
import TemplateStyles.Proofs.Render.MetadataMonoid
/-!
# The theme of the provider

What a caller passes as `theme` is never seen: it is overwritten before attrs and patch are
evaluated, and not forwarded (`render_of_differInTheme`). Nor do attrs reach a patch with a theme of
their own, since the props count over them. So a patch is only ever evaluated on props with the
provider's theme: whatever the patches of a component and of those below it do on other props,
rendering gives the same (`render_of_agreeUnder`). Main result `render_noninterference`.
-/
namespace TemplateStyles

namespace Props

/-- The same names in the same order, with the same values but for the theme. -/
structure DifferInTheme (p q : Props) : Prop where
  keys : p.keys = q.keys
  get? : ∀ k, k ≠ themeName → p.get? k = q.get? k

variable {p q : Props}

theorem DifferInTheme.eraseSwap (h : DifferInTheme p q) (k : String) :
    DifferInTheme (p.eraseSwap k) (q.eraseSwap k) where
  keys := OrderedMap.keys_eraseSwap_congr h.keys k
  get? k' hk' := by rw [OrderedMap.get?_eraseSwap, OrderedMap.get?_eraseSwap, h.get? k' hk']

/-- With one theme for both nothing is left to tell them apart. -/
theorem DifferInTheme.insert_theme (h : DifferInTheme p q) (theme : Json) :
    p.insert themeName theme = q.insert themeName theme := by
  refine OrderedMap.ext_get? ?_ fun k => ?_
  · rw [OrderedMap.keys_insert, OrderedMap.keys_insert, h.keys]
  · rw [OrderedMap.get?_insert, OrderedMap.get?_insert]
    by_cases hk : themeName = k
    · rw [if_pos hk, if_pos hk]
    · rw [if_neg hk, if_neg hk, h.get? k (Ne.symm hk)]

theorem DifferInTheme.forwarded (h : DifferInTheme p q) : p.forwarded = q.forwarded := by
  refine OrderedMap.ext_get? ?_ fun k => ?_
  · have hkeys : ∀ r : Props, r.forwarded.keys = r.keys.filter fun k => !isKept k :=
      fun r => OrderedMap.keys_filter r _
    rw [hkeys, hkeys, h.keys]
  · rw [get?_forwarded, get?_forwarded]
    by_cases hk : isKept k = true
    · rw [if_pos hk, if_pos hk]
    · rw [if_neg hk, if_neg hk, h.get? k fun heq => hk (heq ▸ rfl)]

end Props

/-! ## What is passed as theme -/

namespace StyledComponent

open Props

variable {c : StyledComponent} {p q : Props}

theorem attrsProps_of_differInTheme (h : DifferInTheme p q) (t : Theme) :
    attrsProps t p = attrsProps t q :=
  ((h.eraseSwap asName).eraseSwap styleName).insert_theme t.toJson

theorem isFixed_of_differInTheme (h : DifferInTheme p q) : c.isFixed p = c.isFixed q := by
  rw [isFixed, isFixed, hasExternalStyle, hasExternalStyle, h.get? styleName (by decide)]

theorem renderFixed_of_differInTheme (h : DifferInTheme p q) :
    c.renderFixed p = c.renderFixed q := by
  rw [renderFixed, renderFixed, forwardedIfNeeded_eq, forwardedIfNeeded_eq, h.forwarded,
    h.get? asName (by decide)]

theorem renderEvaluated_of_differInTheme (h : DifferInTheme p q) (t : Theme) :
    c.renderEvaluated t p = c.renderEvaluated t q := by
  have hprops : c.propsWithAttrs t p = c.propsWithAttrs t q := by
    rw [propsWithAttrs, propsWithAttrs, attrsProps_of_differInTheme h]
  rw [renderEvaluated, renderEvaluated, evaluatedTarget, evaluatedTarget, patchProps, patchProps,
    hprops, h.get? asName (by decide), h.get? styleName (by decide)]

/-- **A caller's theme has no effect**, neither on the element nor on whether there is one. -/
theorem render_of_differInTheme (h : DifferInTheme p q) (theme : Option Theme) :
    c.render p theme = c.render q theme := by
  unfold render
  rw [isFixed_of_differInTheme h, renderFixed_of_differInTheme h]
  cases theme with
  | none => rfl
  | some t =>
    dsimp only
    rw [renderEvaluated_of_differInTheme h]

/-- The patch sees the theme of the provider, also if attrs give another one. -/
theorem get?_patchProps_theme (c : StyledComponent) (t : Theme) (p : Props) :
    (c.patchProps t p).get? themeName = some t.toJson := by
  have hprops : (attrsProps t p).get? themeName = some t.toJson := by
    rw [get?_attrsProps, if_pos rfl]
  rw [patchProps, OrderedMap.get?_eraseSwap, if_neg (by decide), propsWithAttrs,
    Attrs.get?_applyTo, hprops, Option.some_or]

end StyledComponent

/-! ## What patches are evaluated on -/

/-- Metadata whose patches may differ, but not on props with the theme of the provider. -/
structure Metadata.AgreeUnder (theme : Option Theme) (m n : Metadata) : Prop where
  compiled : m.compiled = n.compiled
  keys : m.keys = n.keys
  attrs : m.attrs = n.attrs
  debug : m.debug = n.debug
  hasPatch : m.patch.isSome = n.patch.isSome
  patch : ∀ t ∈ theme, ∀ p : Props, p.get? Props.themeName = some t.toJson →
    m.evaluatePatch p = n.evaluatePatch p

/-- Components that are the same but for such patches, in any layer. -/
inductive Component.AgreeUnder (theme : Option Theme) : Component → Component → Prop
  | host (name : String) : AgreeUnder theme (.host name) (.host name)
  | forwardRef {c d : Component} :
    AgreeUnder theme c d → AgreeUnder theme (.forwardRef c) (.forwardRef d)
  | memo {c d : Component} : AgreeUnder theme c d → AgreeUnder theme (.memo c) (.memo d)
  | animated {c d : Component} : AgreeUnder theme c d → AgreeUnder theme (.animated c) (.animated d)
  | styled {c d : Component} {m n : Metadata} :
    AgreeUnder theme c d → m.AgreeUnder theme n → AgreeUnder theme (.styled c m) (.styled d n)

variable {theme : Option Theme}

theorem Metadata.AgreeUnder.merge {m m' n n' : Metadata} (hm : m.AgreeUnder theme m')
    (hn : n.AgreeUnder theme n') : (m.merge n).AgreeUnder theme (m'.merge n') where
  compiled := by rw [Metadata.merge, Metadata.merge, hm.compiled, hn.compiled]
  keys := by rw [Metadata.merge, Metadata.merge, hm.keys, hn.keys]
  attrs := by rw [Metadata.merge, Metadata.merge, hm.attrs, hn.attrs]
  debug := by rw [Metadata.merge, Metadata.merge, hm.debug, hn.debug]
  hasPatch := by
    rw [Metadata.merge, Metadata.merge, isSome_combinePatches, isSome_combinePatches, hm.hasPatch,
      hn.hasPatch]
  patch t ht p hp := by
    rw [evaluatePatch_merge, evaluatePatch_merge, hm.patch t ht p hp, hn.patch t ht p hp]

/-- Metadata on top of what is inherited, if anything is. -/
theorem Metadata.AgreeUnder.inherit {a b : Option Metadata} {m n : Metadata}
    (h : Option.Rel (Metadata.AgreeUnder theme) a b) (hown : m.AgreeUnder theme n) :
    ((a.map (·.merge m)).getD m).AgreeUnder theme ((b.map (·.merge n)).getD n) := by
  cases h with
  | none => exact hown
  | some h => exact h.merge hown

namespace Component

variable {c d : Component}

theorem AgreeUnder.displayName (h : c.AgreeUnder theme d) : c.displayName = d.displayName := by
  induction h with
  | host name => rfl
  | forwardRef _ ih | memo _ ih | animated _ ih | styled _ _ ih => simp [Component.displayName, ih]

theorem AgreeUnder.isFrozen (h : c.AgreeUnder theme d) : c.isFrozen = d.isFrozen := by
  cases h <;> rfl

/-- What is found below such components agrees, since both searches take the same way. -/
theorem AgreeUnder.metadataWithin (h : c.AgreeUnder theme d) (depth : Nat) :
    Option.Rel (Metadata.AgreeUnder theme) (c.metadataWithin depth) (d.metadataWithin depth) := by
  induction h generalizing depth with
  | host name => cases depth <;> exact .none
  | animated _ _ => cases depth <;> exact .none
  | forwardRef _ ih | memo _ ih =>
    cases depth with
    | zero => exact .none
    | succ depth => exact ih depth
  | styled hbase hown ih =>
    cases depth with
    | zero => exact .none
    | succ depth =>
      rw [Component.metadataWithin, Component.metadataWithin, hbase.isFrozen]
      split
      · exact .none
      · exact .some (.inherit (ih searchDepth) hown)

end Component

namespace StyledComponent

open Props

variable {c d : StyledComponent}

theorem merged_agreeUnder (h : c.component.AgreeUnder theme d.component) :
    c.merged.AgreeUnder theme d.merged := by
  rw [component, component] at h
  cases h with
  | styled hbase hown => exact .inherit (hbase.metadataWithin Component.searchDepth) hown

theorem target_of_agreeUnder (h : c.component.AgreeUnder theme d.component)
    (asValue fallback : Option Json) : c.target asValue fallback = d.target asValue fallback := by
  rw [component, component] at h
  cases h with
  | styled hbase hown => rw [target, target, hbase.displayName]

/-- The style is fixed for the same props: a patch is there for both or for neither. -/
theorem isFixed_of_agreeUnder (h : c.component.AgreeUnder theme d.component) (p : Props) :
    c.isFixed p = d.isFixed p := by
  have hmerged := merged_agreeUnder h
  have hpatch : c.merged.patch.isNone = d.merged.patch.isNone := by
    rw [← Option.not_isSome, ← Option.not_isSome, hmerged.hasPatch]
  rw [isFixed, isFixed, hpatch, hmerged.attrs]

theorem renderFixed_of_agreeUnder (h : c.component.AgreeUnder theme d.component) (p : Props) :
    c.renderFixed p = d.renderFixed p := by
  have hmerged := merged_agreeUnder h
  rw [renderFixed, renderFixed, target_of_agreeUnder h, Metadata.staticStyles,
    Metadata.staticStyles, Metadata.styleKeys, Metadata.styleKeys, hmerged.compiled, hmerged.keys]

theorem renderEvaluated_of_agreeUnder {t : Theme}
    (h : c.component.AgreeUnder (some t) d.component) (p : Props) :
    c.renderEvaluated t p = d.renderEvaluated t p := by
  have hmerged := merged_agreeUnder h
  have hprops : c.propsWithAttrs t p = d.propsWithAttrs t p := by
    rw [propsWithAttrs, propsWithAttrs, hmerged.attrs]
  have hgiven : c.patchProps t p = d.patchProps t p := by rw [patchProps, patchProps, hprops]
  have hpatch := hmerged.patch t rfl (c.patchProps t p) (c.get?_patchProps_theme t p)
  rw [renderEvaluated, renderEvaluated, evaluatedTarget, evaluatedTarget, ← hgiven, ← hpatch,
    hprops, Metadata.styleKeys, Metadata.styleKeys, hmerged.compiled, hmerged.keys]
  simp only [target_of_agreeUnder h]

/-- **What a patch does on props with another theme has no effect.** -/
theorem render_of_agreeUnder (h : c.component.AgreeUnder theme d.component) (p : Props) :
    c.render p theme = d.render p theme := by
  unfold render
  rw [isFixed_of_agreeUnder h, renderFixed_of_agreeUnder h]
  cases theme with
  | none => rfl
  | some t =>
    dsimp only
    rw [renderEvaluated_of_agreeUnder h]

/-- **Callers and attrs cannot replace the theme of the provider.** Callers whose props differ in
the theme alone get the same element or the same error. A patch takes part in an element by its
value on props that hold the provider's theme, whatever the caller and the attrs gave for it; and
a component with patches that do anything else on all other props, in any layer, renders the same. -/
theorem render_noninterference (c : StyledComponent) (theme : Option Theme) :
    (∀ p q : Props, p.keys = q.keys → (∀ k, k ≠ themeName → p.get? k = q.get? k) →
        c.render p theme = c.render q theme) ∧
      (∀ (p : Props) (f : PatchFunction) (e : Element), c.merged.patch = some f →
        c.render p theme = .ok e → ∃ t, theme = some t ∧
          (c.patchProps t p).get? themeName = some t.toJson ∧
          e.style = some (styleList c.merged.compiled c.merged.styleKeys (f (c.patchProps t p))
            (p.get? styleName))) ∧
      ∀ d : StyledComponent, c.component.AgreeUnder theme d.component →
        ∀ p, c.render p theme = d.render p theme := by
  refine ⟨fun p q hkeys hget => render_of_differInTheme ⟨hkeys, hget⟩ theme,
    fun p f e hpatch he => ?_, fun d h => render_of_agreeUnder h⟩
  rcases render_eq_ok_iff.1 he with ⟨hfixed, -⟩ | ⟨-, t, rfl, rfl⟩
  · simp [isFixed, hpatch] at hfixed
  · refine ⟨t, rfl, c.get?_patchProps_theme t p, ?_⟩
    rw [renderEvaluated, Metadata.evaluatePatch, hpatch, Option.bind_some]

/-- An inherited patch with a token of the theme, under attrs and a caller who set a theme of their
own. -/
theorem render_noninterference_token :
    let t : Theme :=
      ⟨.ofList [("primary", .str "tomato")], .empty, .empty, .empty, .empty, .empty⟩
    let tinted : PatchFunction := fun p => (p.token? "colors.primary").map fun v =>
      .ofList [("color", v)]
    let guarded : PatchFunction := fun p =>
      if p.get? themeName = some t.toJson then tinted p else some (.ofList [("color", .null)])
    let own : Metadata := ⟨none, none, none,
      some (.fixed (.ofList [("theme", .str "attrs"), ("id", .str "a")])), false⟩
    let c : StyledComponent := ⟨.styled (.host "View") ⟨none, none, some tinted, none, false⟩, own⟩
    let d : StyledComponent := ⟨.styled (.host "View") ⟨none, none, some guarded, none, false⟩, own⟩
    let p : Props := .ofList [("theme", .null), ("role", .str "b")]
    let q : Props := .ofList [("theme", .str "caller"), ("role", .str "b")]
    p.keys = q.keys ∧ (∀ k, k ≠ themeName → p.get? k = q.get? k) ∧
      c.component.AgreeUnder (some t) d.component ∧
      c.render p (some t) = c.render q (some t) ∧ c.render p (some t) = d.render p (some t) ∧
      c.render p (some t) = .ok (c.renderEvaluated t p) ∧
      (c.patchProps t p).get? themeName = some t.toJson ∧
      (c.renderEvaluated t p).style = some [.inlined (.ofList [("color", .str "tomato")])] := by
  intro t tinted guarded own c d p q
  have hget : ∀ k, k ≠ themeName → p.get? k = q.get? k := by
    intro k hk
    have htheme : ¬ "theme" = k := Ne.symm hk
    simp [p, q, OrderedMap.get?_ofList, Entries.find?, htheme]
  have hagree : c.component.AgreeUnder (some t) d.component := by
    refine .styled (.styled (.host "View") ⟨rfl, rfl, rfl, rfl, rfl, ?_⟩)
      ⟨rfl, rfl, rfl, rfl, rfl, fun _ _ _ _ => rfl⟩
    rintro _ ⟨⟩ r hr
    exact (if_pos hr).symm
  have hrender : c.render p (some t) = .ok (c.renderEvaluated t p) :=
    render_eq_ok_iff.2 (.inr ⟨rfl, t, rfl, rfl⟩)
  obtain ⟨hcaller, hpatch, hother⟩ := render_noninterference c (some t)
  obtain ⟨_, ⟨⟩, htheme, hstyle⟩ := hpatch p tinted _ rfl hrender
  refine ⟨rfl, hget, hagree, hcaller p q rfl hget, hother d hagree p, hrender, htheme, ?_⟩
  rw [hstyle]
  decide +kernel

end StyledComponent

end TemplateStyles
