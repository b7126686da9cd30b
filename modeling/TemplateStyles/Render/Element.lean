import TemplateStyles.Render.Component
import TemplateStyles.Render.Theme
/-!
# Rendered elements

What a styled component renders for given props. If nothing about its style depends on them, the
registered styles are used as they are (`renderFixed`); otherwise attrs and patch are evaluated
under the theme (`renderEvaluated`). The props `as`, `theme` and `style` and the transient ones are
never passed on.

| here | in the program |
| --- | --- |
| `Element` | `RenderedElement` |
| `StyledComponent.target` | `target_component` |
| `StyledComponent.hasExternalStyle` | `is_truthy` |
| `StyledComponent.render` | `render` |
-/
namespace TemplateStyles

structure Element where
  /-- The name of the component that is rendered. -/
  target : String
  props : Props
  style : Option (List StyleEntry)
deriving DecidableEq

namespace StyledComponent

/-- The component named by the first of two values that there is, if it is a text; else the base. -/
def target (c : StyledComponent) (asValue fallback : Option Json) : String :=
  match asValue.or fallback with
  | some (.str name) => name
  | _ => c.base.displayName

/-- Whether a style was passed; `null` and `false` stand for none. -/
def hasExternalStyle (p : Props) : Bool :=
  match p.get? Props.styleName with
  | none | some .null | some (.bool false) => false
  | some _ => true

/-- Whether the style is the same for all props. -/
def isFixed (c : StyledComponent) (p : Props) : Bool :=
  c.merged.patch.isNone && c.merged.attrs.isNone && !hasExternalStyle p

/-- Rendering with the registered styles alone. -/
def renderFixed (c : StyledComponent) (p : Props) : Element where
  target := c.target (p.get? Props.asName) none
  props := p.forwardedIfNeeded.eraseSwap Props.styleName
  style := c.merged.staticStyles

/-- The props that attrs are resolved on. -/
def attrsProps (t : Theme) (p : Props) : Props :=
  ((p.eraseSwap Props.asName).eraseSwap Props.styleName).insert Props.themeName t.toJson

/-- The props with the attrs as their defaults. -/
def propsWithAttrs (c : StyledComponent) (t : Theme) (p : Props) : Props :=
  Attrs.applyTo c.merged.attrs (attrsProps t p)

/-- The props that the patch is evaluated on. -/
def patchProps (c : StyledComponent) (t : Theme) (p : Props) : Props :=
  (c.propsWithAttrs t p).eraseSwap Props.asName

/-- The component that is rendered: a caller's `as` counts only if it is a text. -/
def evaluatedTarget (c : StyledComponent) (t : Theme) (p : Props) : String :=
  match p.get? Props.asName with
  | some (.str name) => name
  | _ => c.target none ((c.propsWithAttrs t p).get? Props.asName)

/-- Rendering with attrs, patch and the caller's style. -/
def renderEvaluated (c : StyledComponent) (t : Theme) (p : Props) : Element where
  target := c.evaluatedTarget t p
  props := (c.patchProps t p).forwarded.eraseSwap Props.styleName
  style := some (styleList c.merged.compiled c.merged.styleKeys
    (c.merged.evaluatePatch (c.patchProps t p)) (p.get? Props.styleName))

/-- Rendering under a theme, or under none: only a style that depends on nothing can do without. -/
def render (c : StyledComponent) (p : Props) (theme : Option Theme) :
    Except ThemeError Element :=
  if c.isFixed p then .ok (c.renderFixed p)
  else match theme with
    | none => .error .missing
    | some t => .ok (c.renderEvaluated t p)

end StyledComponent

end TemplateStyles
