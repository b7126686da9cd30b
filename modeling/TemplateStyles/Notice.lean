import TemplateStyles.Script.StyleObject
/-!
# Notices

What is reported while the work goes on. A notice is a warning, or an error that did not stop
anything.

In the program, `transformMessage` is `transform`.
-/
namespace TemplateStyles

inductive Notice where
  /-- A box shorthand was kept as one value. -/
  | ambiguousShorthand (declaration : String)
  /-- A dynamic property has no expression to take its value from. -/
  | droppedDynamic (file property : String) (value : StyleValue)
  /-- A template has nothing to be rewritten to. -/
  | nothingUsable (file : String) (template : Nat)
  /-- No code could be generated for a template. -/
  | keptAsWritten (file : String) (template : Nat) (error : GenerationError)
  | unregisteredStyle (id : Nat)
  /-- A styled template was not compiled beforehand. -/
  | styledReadLate (component : String)
  /-- A css block was not compiled beforehand. -/
  | cssReadLate
  /-- A marker was left after the values were filled in. -/
  | markerLeft (property : String)
deriving DecidableEq

inductive Level where
  | warning
  | error
deriving DecidableEq, Repr

/-- The full text of an error in one template of a file. -/
def transformMessage (file : String) (template : Nat) (e : GenerationError) : String :=
  "Transform error in " ++ file ++ " (template " ++ toString template ++ "): " ++ e.message

namespace Notice

def level : Notice → Level
  | keptAsWritten .. => .error
  | _ => .warning

def text : Notice → String
  | ambiguousShorthand declaration =>
    "'" ++ declaration ++ "' has no positional shorthand meaning; keeping it as a single value"
  | droppedDynamic file property value =>
    file ++ ": dropping dynamic '" ++ property ++ "' (" ++ value.display ++
      ") with no matching expression"
  | nothingUsable file template =>
    file ++ ": template " ++ toString template ++
      " has no usable declarations, left unchanged"
  | keptAsWritten file template e =>
    transformMessage file template e ++ "; keeping the original template"
  | unregisteredStyle id => "style id " ++ toString id ++ " is not registered"
  | styledReadLate component =>
    "styled(" ++ component ++ ") template is being parsed at runtime; enable the build-time " ++
      "transform for better performance"
  | cssReadLate => "css block is being parsed at runtime; enable the build-time transform"
  | markerLeft property =>
    "css: '" ++ property ++ "' still holds a placeholder after interpolation, dropped"

end Notice

end TemplateStyles
