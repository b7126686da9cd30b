import TemplateStyles.Proofs.Render.FixedRendering
/-!
# Forwarded props

A component that is rendered hands on the caller's props under the defaults of its attrs, and
nothing whose name is reserved for the styled layer. Main result `get?_props_of_render`: what is
forwarded under each name, whichever way of rendering is taken.
-/
namespace TemplateStyles

/-- What is passed counts, and a default where nothing is. -/
theorem Attrs.get?_applyTo (attrs : Option Attrs) (p : Props) (k : String) :
    (applyTo attrs p).get? k = (p.get? k).or ((attrs.bind (·.resolve p)).bind (·.get? k)) := by
  unfold applyTo
  cases attrs.bind (·.resolve p) with
  | none => simp
  | some defaults => exact OrderedMap.get?_merge defaults p k

/-- A name that is never passed on. -/
def Props.IsReserved (k : String) : Prop :=
  isTransient k = true ∨ k ∈ [asName, themeName, styleName]

instance : DecidablePred Props.IsReserved := fun _ => inferInstanceAs (Decidable (_ ∨ _))

namespace StyledComponent

open Props

/-- The defaults that the attrs of a component give under a theme. -/
def defaults? (c : StyledComponent) (theme : Option Theme) (p : Props) : Option Props :=
  theme.bind fun t => c.merged.attrs.bind (·.resolve (attrsProps t p))

variable {c : StyledComponent} {p : Props} {theme : Option Theme} {k : String}

/-- **The two ways of rendering.** -/
theorem render_eq_ok_iff {e : Element} : c.render p theme = .ok e ↔
    (c.isFixed p = true ∧ e = c.renderFixed p) ∨
      (c.isFixed p = false ∧ ∃ t, theme = some t ∧ e = c.renderEvaluated t p) := by
  unfold render
  cases c.isFixed p with
  | true => simp [eq_comm]
  | false => cases theme <;> simp [eq_comm]

theorem attrs_of_isFixed (h : c.isFixed p = true) : c.merged.attrs = none := by
  simp only [isFixed, Bool.and_eq_true, Option.isNone_iff_eq_none] at h
  exact h.1.2

theorem isReserved_iff : IsReserved k ↔ k = styleName ∨ isKept k = true := by
  simp only [IsReserved, isKept, List.mem_cons, List.not_mem_nil, or_false, Bool.or_eq_true,
    beq_iff_eq]
  rw [← or_assoc, ← or_assoc, or_comm]

/-- Only reserved names are set otherwise than the caller set them. -/
theorem get?_attrsProps_of_not_isReserved (h : ¬ IsReserved k) (t : Theme) (p : Props) :
    (attrsProps t p).get? k = p.get? k := by
  simp only [IsReserved, List.mem_cons, List.not_mem_nil, or_false, not_or] at h
  obtain ⟨-, has, htheme, hstyle⟩ := h
  rw [get?_attrsProps, if_neg htheme, if_neg (not_or.2 ⟨hstyle, has⟩)]

/-- **Which props are forwarded.** Under a name that is not reserved, the component gets what the
caller passes, or else the default of the attrs, or else nothing; under a reserved name it gets
nothing. The attrs see the caller's props without target and style, and with the theme. -/
theorem get?_props_of_render (c : StyledComponent) (p : Props) (theme : Option Theme)
    {e : Element} (h : c.render p theme = .ok e) :
    (∀ k, IsReserved k → e.props.get? k = none) ∧
      (∀ k, ¬ IsReserved k →
        e.props.get? k = (p.get? k).or ((c.defaults? theme p).bind (·.get? k))) ∧
      ∀ t k, (attrsProps t p).get? k =
        if k = themeName then some t.toJson
        else if k = styleName ∨ k = asName then none else p.get? k := by
  refine ⟨fun k hk => ?_, fun k hk => ?_, fun t k => get?_attrsProps t p k⟩
  · have hkept := isReserved_iff.1 hk
    rcases render_eq_ok_iff.1 h with ⟨-, rfl⟩ | ⟨-, t, -, rfl⟩
    · rw [get?_renderFixed_props, if_pos hkept]
    · rw [get?_renderEvaluated_props, if_pos hkept]
  · have hkept := mt isReserved_iff.2 hk
    rcases render_eq_ok_iff.1 h with ⟨hfixed, rfl⟩ | ⟨-, t, rfl, rfl⟩
    · -- without attrs there are no defaults, whatever the theme is
      have hdefaults : c.defaults? theme p = none := by
        rw [defaults?, attrs_of_isFixed hfixed]
        simp
      rw [get?_renderFixed_props, if_neg hkept, hdefaults, Option.bind_none, Option.or_none]
    · rw [get?_renderEvaluated_props, if_neg hkept, propsWithAttrs, Attrs.get?_applyTo,
        get?_attrsProps_of_not_isReserved hk]
      rfl

/-- Two layers of attrs, of which the second sees the first and both set reserved names, under a
caller who sets them too. -/
theorem get?_props_of_render_layers :
    let search : Metadata := ⟨none, none, none, some (.fixed (.ofList [("role", .str "search"),
      ("id", .str "field"), ("theme", .null)])), false⟩
    let labelled : Metadata := ⟨none, none, none, some (.computed fun p =>
      (p.get? "role").map fun role => .ofList [("label", role), ("style", role), ("$role", role)]),
      false⟩
    let c : StyledComponent := ⟨.styled (.host "Input") search, labelled⟩
    let p : Props := .ofList [("$tone", .str "red"), ("id", .str "a"), ("as", .str "Field"),
      ("theme", .bool true), ("style", .obj [("flex", .num (.int 1))])]
    let t : Theme := ⟨.empty, .empty, .empty, .empty, .empty, .empty⟩
    c.isFixed p = false ∧ c.render p (some t) = .ok (c.renderEvaluated t p) ∧
      (c.renderEvaluated t p).props.get? "id" = some (.str "a") ∧
      (c.renderEvaluated t p).props.get? "label" = some (.str "search") ∧
      (c.renderEvaluated t p).props.get? "theme" = none ∧
      (c.renderEvaluated t p).props.get? "$role" = none := by
  intro search labelled c p t
  have hfixed : c.isFixed p = false := by decide
  have hrender : c.render p (some t) = .ok (c.renderEvaluated t p) :=
    render_eq_ok_iff.2 (.inr ⟨hfixed, t, rfl, rfl⟩)
  obtain ⟨hreserved, hopen, -⟩ := get?_props_of_render c p (some t) hrender
  refine ⟨hfixed, hrender, ?_, ?_, hreserved _ (by decide), hreserved _ (by decide)⟩
  · rw [hopen "id" (by decide)]
    decide
  · rw [hopen "label" (by decide)]
    decide

end StyledComponent

end TemplateStyles
