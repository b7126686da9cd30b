import TemplateStyles.StyleModule.Basic
/-!
# Statistics of a module

How many templates were rewritten or kept, and how many style sheets, properties and skipped
declarations there are in their instructions and findings.

| here | in the program |
| --- | --- |
| `Statistics` | `CompilationStats` |
| `StyleModule.statistics` | `compile_source_with_options` |
-/
namespace TemplateStyles

structure Statistics where
  templates : Nat
  rewritten : Nat
  kept : Nat
  sheets : Nat
  static : Nat
  dynamic : Nat
  skipped : Nat
deriving DecidableEq, Repr

namespace CompiledTemplate

/-- The fixed properties of a template's instructions. -/
def staticCount (t : CompiledTemplate) : Nat :=
  (t.instructions.registration.map (·.properties.size)).getD 0

/-- The dynamic properties of a template's instructions. -/
def dynamicCount (t : CompiledTemplate) : Nat :=
  (t.instructions.patch.map (·.entries.length)).getD 0

end CompiledTemplate

/-- The sum of what is counted in each template. -/
def StyleModule.total (count : CompiledTemplate → Nat) (m : StyleModule) : Nat :=
  m.templates.foldr (fun t n => count t + n) 0

def StyleModule.statistics (m : StyleModule) : Statistics where
  templates := m.templates.length
  rewritten := m.templates.countP (·.outcome.isRewritten)
  kept := m.templates.countP (!·.outcome.isRewritten)
  sheets := m.templates.countP (·.instructions.registration.isSome)
  static := m.total (·.staticCount)
  dynamic := m.total (·.dynamicCount)
  skipped := m.total (·.findings.skipped.length)

end TemplateStyles
