import TemplateStyles.Json.Printer
import TemplateStyles.Render.LateTemplate
/-!
# Styles without a component

A compiled css block (`CssStyle`) gives a style list by itself. Its patch is evaluated on no props,
and the last patch is remembered, so that the same patch need not be prepared twice. A css block
that was not compiled beforehand (`CssSite`) is filled in with its values as text and read at each
use.

| here | in the program |
| --- | --- |
| `CssResult`, `CssStyle`, `CssSite` | `CssResult`, `CssStyle`, `CssCallSite` |
| `CssStyle.prepare` | `memoized` |
| `CssStyle.evaluate` | `with_styles` |
| `Json.interpolated` | `interpolated_text` |
| `CssSite.style` | `evaluate` |
-/
namespace TemplateStyles

/-- A patch as it was evaluated, by its text, and as it was prepared. -/
structure CachedPatch where
  text : String
  prepared : StyleObject
deriving DecidableEq

structure CssStyle where
  metadata : Metadata
  cache : Option CachedPatch
  /-- How often the remembered patch was used. -/
  hits : Nat

/-- A single entry stands by itself. -/
inductive CssResult where
  | single (entry : StyleEntry)
  | list (entries : List StyleEntry)
deriving DecidableEq

namespace CssResult

def ofEntries : List StyleEntry → CssResult
  | [entry] => single entry
  | entries => list entries

def entries : CssResult → List StyleEntry
  | single entry => [entry]
  | list entries => entries

end CssResult

/-- A patch as it enters a style list: with typed values and without shorthands. -/
def StyleObject.prepared (patch : StyleObject) : StyleObject := StyleObject.expand patch.typed

namespace CssStyle

def ofMetadata (m : Metadata) : CssStyle := ⟨m, none, 0⟩

/-- Prepares a patch, or takes the remembered one if it has the same text. -/
def prepare (s : CssStyle) (patch : StyleObject) : StyleObject × CssStyle :=
  let text := (Json.object patch).compact
  match s.cache.filter (·.text == text) with
  | some cached => (cached.prepared, { s with hits := s.hits + 1 })
  | none => (patch.prepared, { s with cache := some ⟨text, patch.prepared⟩ })

/-- The style list, and the style with what it remembers now. -/
def evaluate (s : CssStyle) : CssResult × CssStyle :=
  let fixed := s.metadata.staticStyles.getD []
  match (s.metadata.evaluatePatch .empty).filter (!·.isEmpty) with
  | none => (.ofEntries fixed, s)
  | some patch =>
    let (prepared, s) := s.prepare patch
    (.ofEntries (fixed ++ [.inlined prepared]), s)

end CssStyle

/-! ## Blocks read at each use -/

/-- A value as the text that stands for it in a block. -/
def Json.interpolated : Json → String
  | .str s => s
  | .num n => n.toBinary64.text
  | .null | .bool false => ""
  | .bool true => "true"
  | .arr items => (Json.arr items).compact
  | .obj members => (Json.obj members).compact

/-- The parts of a block with the texts of the values between them. -/
def fillIn : List String → List Json → String
  | [], _ => ""
  | [part], _ => part
  | part :: rest, [] => part ++ fillIn rest []
  | part :: rest, v :: vs => part ++ v.interpolated ++ fillIn rest vs

/-- A call site of the css helper. -/
structure CssSite where
  /-- Whether it was told that its block is read at each use. -/
  warned : Bool
deriving DecidableEq, Repr

namespace CssSite

def fresh : CssSite := ⟨false⟩

/-- The block of one use. -/
def block (parts : List String) (values : List Json) : Block := Block.ofText (fillIn parts values)

/-- The fixed styles of the filled-in block. -/
def style (parts : List String) (values : List Json) : StyleObject :=
  StyleMap.toJson (block parts values).rule.static

def warn (_ : CssSite) : CssSite := ⟨true⟩

def notices (s : CssSite) (parts : List String) (values : List Json) : List Notice :=
  let b := block parts values
  (if s.warned then [] else [.cssReadLate]) ++ b.findings.ambiguous.map .ambiguousShorthand ++
    b.rule.dynamicEntries.map fun e => .markerLeft e.1

end CssSite

end TemplateStyles
