import TemplateStyles.OrderedMap
import TemplateStyles.Text.Character
/-!
# Property names

A property has one canonical name, in camel case, and may be written hyphenated. `normalize` finds
the canonical name: a hyphenated name is looked up in `canonicalNames` without regard to case, and
one that is not listed is converted letter by letter (`toCamel`). `toKebab` writes a canonical name
hyphenated, and `known` are the canonical names that the target platform defines. All names in the
two tables are ASCII.

| here | in the program |
| --- | --- |
| `Property.canonicalNames`, `Property.canonical?` | `PROPERTY_TABLE`, `mapped_property` |
| `Property.known`, `Property.isKnown` | `is_valid_property` |
| `Property.toCamel` | `kebab_to_camel` |
| `Property.toKebab` | `camel_to_kebab` |
| `Property.normalize` | `normalize_property` |
-/
namespace TemplateStyles.Property

/-! ## Tables -/

/-- Hyphenated names, in lower case, with their canonical names. -/
def canonicalNames : List (String × String) :=
  [("background-color", "backgroundColor"), ("border-width", "borderWidth"),
   ("border-color", "borderColor"), ("border-style", "borderStyle"),
   ("border-radius", "borderRadius"), ("border-top-width", "borderTopWidth"),
   ("border-right-width", "borderRightWidth"), ("border-bottom-width", "borderBottomWidth"),
   ("border-left-width", "borderLeftWidth"), ("border-start-width", "borderStartWidth"),
   ("border-end-width", "borderEndWidth"), ("border-top-color", "borderTopColor"),
   ("border-right-color", "borderRightColor"), ("border-bottom-color", "borderBottomColor"),
   ("border-left-color", "borderLeftColor"), ("border-start-color", "borderStartColor"),
   ("border-end-color", "borderEndColor"), ("border-block-color", "borderBlockColor"),
   ("border-block-end-color", "borderBlockEndColor"),
   ("border-block-start-color", "borderBlockStartColor"),
   ("border-top-left-radius", "borderTopLeftRadius"),
   ("border-top-right-radius", "borderTopRightRadius"),
   ("border-bottom-left-radius", "borderBottomLeftRadius"),
   ("border-bottom-right-radius", "borderBottomRightRadius"),
   ("border-top-start-radius", "borderTopStartRadius"),
   ("border-top-end-radius", "borderTopEndRadius"),
   ("border-bottom-start-radius", "borderBottomStartRadius"),
   ("border-bottom-end-radius", "borderBottomEndRadius"),
   ("border-start-start-radius", "borderStartStartRadius"),
   ("border-start-end-radius", "borderStartEndRadius"),
   ("border-end-start-radius", "borderEndStartRadius"),
   ("border-end-end-radius", "borderEndEndRadius"), ("border-curve", "borderCurve"),
   ("shadow-color", "shadowColor"), ("shadow-offset", "shadowOffset"),
   ("shadow-opacity", "shadowOpacity"), ("shadow-radius", "shadowRadius"),
   ("box-shadow", "boxShadow"), ("drop-shadow", "dropShadow"),
   ("backface-visibility", "backfaceVisibility"), ("pointer-events", "pointerEvents"),
   ("outline-color", "outlineColor"), ("outline-offset", "outlineOffset"),
   ("outline-style", "outlineStyle"), ("outline-width", "outlineWidth"),
   ("mix-blend-mode", "mixBlendMode"), ("transform-origin", "transformOrigin"),
   ("margin-top", "marginTop"), ("margin-right", "marginRight"),
   ("margin-bottom", "marginBottom"), ("margin-left", "marginLeft"),
   ("margin-start", "marginStart"), ("margin-end", "marginEnd"),
   ("margin-vertical", "marginVertical"), ("margin-horizontal", "marginHorizontal"),
   ("margin-block", "marginBlock"), ("margin-block-start", "marginBlockStart"),
   ("margin-block-end", "marginBlockEnd"), ("margin-inline", "marginInline"),
   ("margin-inline-start", "marginInlineStart"), ("margin-inline-end", "marginInlineEnd"),
   ("padding-top", "paddingTop"), ("padding-right", "paddingRight"),
   ("padding-bottom", "paddingBottom"), ("padding-left", "paddingLeft"),
   ("padding-start", "paddingStart"), ("padding-end", "paddingEnd"),
   ("padding-vertical", "paddingVertical"), ("padding-horizontal", "paddingHorizontal"),
   ("padding-block", "paddingBlock"), ("padding-block-start", "paddingBlockStart"),
   ("padding-block-end", "paddingBlockEnd"), ("padding-inline", "paddingInline"),
   ("padding-inline-start", "paddingInlineStart"), ("padding-inline-end", "paddingInlineEnd"),
   ("min-width", "minWidth"), ("max-width", "maxWidth"), ("min-height", "minHeight"),
   ("max-height", "maxHeight"), ("aspect-ratio", "aspectRatio"), ("z-index", "zIndex"),
   ("box-sizing", "boxSizing"), ("inset-block", "insetBlock"), ("inset-inline", "insetInline"),
   ("flex-direction", "flexDirection"), ("flex-wrap", "flexWrap"),
   ("justify-content", "justifyContent"), ("align-items", "alignItems"),
   ("align-self", "alignSelf"), ("align-content", "alignContent"), ("flex-grow", "flexGrow"),
   ("flex-shrink", "flexShrink"), ("flex-basis", "flexBasis"), ("row-gap", "rowGap"),
   ("column-gap", "columnGap"), ("font-size", "fontSize"), ("font-weight", "fontWeight"),
   ("font-family", "fontFamily"), ("font-style", "fontStyle"), ("font-variant", "fontVariant"),
   ("line-height", "lineHeight"), ("letter-spacing", "letterSpacing"),
   ("text-align", "textAlign"), ("text-align-vertical", "textAlignVertical"),
   ("text-decoration", "textDecorationLine"), ("text-decoration-line", "textDecorationLine"),
   ("text-decoration-color", "textDecorationColor"),
   ("text-decoration-style", "textDecorationStyle"), ("text-shadow-color", "textShadowColor"),
   ("text-shadow-offset", "textShadowOffset"), ("text-shadow-radius", "textShadowRadius"),
   ("text-transform", "textTransform"), ("vertical-align", "verticalAlign"),
   ("writing-direction", "writingDirection"), ("include-font-padding", "includeFontPadding"),
   ("user-select", "userSelect"), ("resize-mode", "resizeMode"), ("object-fit", "objectFit"),
   ("tint-color", "tintColor"), ("overlay-color", "overlayColor")]

/-- The canonical names that the target platform defines. -/
def known : List String :=
  ["width", "height", "minWidth", "maxWidth", "minHeight", "maxHeight", "aspectRatio", "margin",
   "marginTop", "marginRight", "marginBottom", "marginLeft", "marginVertical",
   "marginHorizontal", "marginStart", "marginEnd", "marginBlock", "marginBlockStart",
   "marginBlockEnd", "marginInline", "marginInlineStart", "marginInlineEnd", "padding",
   "paddingTop", "paddingRight", "paddingBottom", "paddingLeft", "paddingVertical",
   "paddingHorizontal", "paddingStart", "paddingEnd", "paddingBlock", "paddingBlockStart",
   "paddingBlockEnd", "paddingInline", "paddingInlineStart", "paddingInlineEnd", "flex",
   "flexDirection", "flexWrap", "justifyContent", "alignItems", "alignSelf", "alignContent",
   "flexGrow", "flexShrink", "flexBasis", "rowGap", "columnGap", "gap", "position", "top",
   "right", "bottom", "left", "start", "end", "zIndex", "inset", "insetBlock", "insetInline",
   "opacity", "overflow", "display", "backfaceVisibility", "pointerEvents", "cursor",
   "direction", "boxSizing", "isolation", "mixBlendMode", "backgroundColor", "color",
   "borderWidth", "borderTopWidth", "borderRightWidth", "borderBottomWidth", "borderLeftWidth",
   "borderStartWidth", "borderEndWidth", "borderColor", "borderTopColor", "borderRightColor",
   "borderBottomColor", "borderLeftColor", "borderStartColor", "borderEndColor",
   "borderBlockColor", "borderBlockStartColor", "borderBlockEndColor", "borderStyle",
   "borderCurve", "borderRadius", "borderTopLeftRadius", "borderTopRightRadius",
   "borderBottomLeftRadius", "borderBottomRightRadius", "borderTopStartRadius",
   "borderTopEndRadius", "borderBottomStartRadius", "borderBottomEndRadius",
   "borderStartStartRadius", "borderStartEndRadius", "borderEndStartRadius",
   "borderEndEndRadius", "shadowColor", "shadowOffset", "shadowOpacity", "shadowRadius",
   "elevation", "boxShadow", "dropShadow", "filter", "outlineColor", "outlineOffset",
   "outlineStyle", "outlineWidth", "fontSize", "fontWeight", "fontFamily", "fontStyle",
   "fontVariant", "lineHeight", "letterSpacing", "textAlign", "textAlignVertical",
   "textDecorationLine", "textDecorationColor", "textDecorationStyle", "textShadowColor",
   "textShadowOffset", "textShadowRadius", "textTransform", "verticalAlign", "writingDirection",
   "includeFontPadding", "userSelect", "resizeMode", "objectFit", "tintColor", "overlayColor",
   "transform", "transformOrigin", "transformMatrix", "rotation", "scaleX", "scaleY",
   "translateX", "translateY"]

/-! ## Case conversion -/

/-- Every hyphen before an ASCII lower-case letter is removed and the letter put in upper case. -/
def camelChars : List Char → List Char
  | [] => []
  | '-' :: c :: r => if c.isLower then c.toUpper :: camelChars r else '-' :: camelChars (c :: r)
  | c :: r => c :: camelChars r

/-- Every ASCII upper-case letter is put in lower case behind a hyphen. -/
def kebabChars (s : List Char) : List Char :=
  s.flatMap fun c => if c.isUpper then ['-', c.toLower] else [c]

def toCamel (name : String) : String := String.ofList (camelChars name.toList)

def toKebab (name : String) : String := String.ofList (kebabChars name.toList)

/-! ## Canonical names -/

/-- Lower case as far as it matters for a name in ASCII: beside `A` to `Z`, only the Kelvin sign
has an ASCII lower case. -/
def lowerChar (c : Char) : Char := if c = '\u212a' then 'k' else c.toLower

def lower (name : String) : String := String.ofList (name.toList.map lowerChar)

/-- The listed canonical name of a hyphenated name in lower case. -/
def canonical? (name : String) : Option String := Entries.find? name canonicalNames

def normalizeTrimmed (name : String) : String :=
  if '-' ∈ name.toList then (canonical? (lower name)).getD (toCamel name) else name

/-- The canonical name of a property as written. A name without hyphen is canonical as it is. -/
def normalize (written : String) : String := normalizeTrimmed (Text.trim written)

def isKnown (name : String) : Bool := name ∈ known

end TemplateStyles.Property
