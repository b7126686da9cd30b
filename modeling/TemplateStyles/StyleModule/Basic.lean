import TemplateStyles.Block.Reader
import TemplateStyles.Notice
import TemplateStyles.Script.Replacement
import TemplateStyles.Sheet.Emission
import TemplateStyles.Template.Basic
/-!
# Compiled modules

The templates of one file, compiled. Each template is read and turned into instructions; if there
are any and code can be generated for them, it is rewritten, and otherwise it is kept as it was
written. The only thing that templates share is the numbering of style sheets.

| here | in the program |
| --- | --- |
| `Template.compile` | `transform_template` |
| `Source.compile` | `compile_source_with_options` |
-/
namespace TemplateStyles

/-- What became of a template. -/
inductive Outcome where
  | rewritten (code : Replacement)
  | kept (literal : String)
deriving DecidableEq, Repr

namespace Outcome

def isRewritten : Outcome → Bool
  | rewritten _ => true
  | kept _ => false

/-- The declaration that has to come first. -/
def hoisted : Outcome → Option String
  | rewritten code => code.hoisted
  | kept _ => none

/-- What stands for the template. -/
def code : Outcome → String
  | rewritten code => code.expression
  | kept literal => literal

end Outcome

structure CompiledTemplate where
  name : Option String
  instructions : Instructions
  findings : Findings
  outcome : Outcome
deriving DecidableEq

structure StyleModule where
  fileName : String
  templates : List CompiledTemplate
deriving DecidableEq

/-! ## Notices -/

/-- The notices of reading a block. -/
def Findings.notices (f : Findings) : List Notice := f.ambiguous.map .ambiguousShorthand

/-- The notices of turning a rule into instructions. -/
def Emission.notices (e : Emission) (file : String) : List Notice :=
  e.dropped.map fun d => .droppedDynamic file d.1 d.2

/-! ## Compiling -/

namespace Template

/-- The template's block, read. -/
def block (t : Template) : Block := Block.ofText t.css

/-- The template's instructions. -/
def emission (t : Template) (c : SheetCounter) : Emission :=
  emit t.block.rule t.expressions.length c

def outcome (o : Options) (t : Template) (i : Instructions) : Outcome :=
  match Script.replacement o t i with
  | .ok code => .rewritten code
  | .error _ => .kept (t.literal o.styledName o.cssName)

/-- Why a template is kept. -/
def outcomeNotices (o : Options) (file : String) (index : Nat) (t : Template)
    (i : Instructions) : List Notice :=
  if i.isEmpty then [.nothingUsable file index]
  else match Script.replacement o t i with
    | .ok _ => []
    | .error e => [.keptAsWritten file index e]

def compile (o : Options) (t : Template) (c : SheetCounter) : CompiledTemplate :=
  let i := (t.emission c).instructions
  ⟨t.name, i, t.block.findings, t.outcome o i⟩

def notices (o : Options) (file : String) (index : Nat) (t : Template) (c : SheetCounter) :
    List Notice :=
  t.block.findings.notices ++ (t.emission c).notices file ++
    t.outcomeNotices o file index (t.emission c).instructions

end Template

namespace Source

def compileFrom (o : Options) : SheetCounter → List Template → List CompiledTemplate
  | _, [] => []
  | c, t :: ts => t.compile o c :: compileFrom o (t.emission c).counter ts

def noticesFrom (o : Options) (file : String) :
    Nat → SheetCounter → List Template → List Notice
  | _, _, [] => []
  | index, c, t :: ts =>
    t.notices o file index c ++ noticesFrom o file (index + 1) (t.emission c).counter ts

def compile (o : Options) (file : String) (s : Source) : StyleModule :=
  ⟨file, compileFrom o .start s.templates⟩

def notices (o : Options) (file : String) (s : Source) : List Notice :=
  noticesFrom o file 0 .start s.templates

end Source

end TemplateStyles
