/-!
# Options of a compilation

The names under which generated scripts refer to their surroundings, and what is written for a
compiled file.

| here | in the program |
| --- | --- |
| `Options` | `CompilerOptions` |
| `Options.standard` | `CompilerOptions.default` |
-/
namespace TemplateStyles

/-- What is written for a compiled file. -/
inductive OutputFormat where
  /-- A script with the rewritten templates. -/
  | script
  /-- A document with instructions, findings and code. -/
  | document
  /-- A dump of the compiled module. -/
  | dump
deriving DecidableEq, Repr

def OutputFormat.ofName? (name : String) : Option OutputFormat :=
  if name = "js" then some .script
  else if name = "json" then some .document
  else if name = "debug" then some .dump
  else none

structure Options where
  /-- The module that the styled and css helpers are imported from. -/
  helperModule : String
  /-- The module that the style sheets are imported from. -/
  sheetModule : String
  sheetName : String
  styledName : String
  cssName : String
  /-- Whether all metadata are marked for debugging. -/
  marksDebug : Bool
  format : OutputFormat
deriving DecidableEq, Repr

def Options.standard : Options where
  helperModule := "kstyled"
  sheetModule := "react-native"
  sheetName := "StyleSheet"
  styledName := "styled"
  cssName := "css"
  marksDebug := false
  format := .script

instance : Inhabited Options := ⟨.standard⟩

end TemplateStyles
