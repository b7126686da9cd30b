import TemplateStyles.Json.Quoted
import TemplateStyles.Value
/-!
# Identifiers and style objects in scripts

A name can stand by itself in a script if it is an identifier: an ASCII letter, `_` or `$`,
followed by any number of these and ASCII digits. A path is identifiers with dots between them.

A style map is written as an object literal. Keys stand by themselves if they are identifiers and
between quotes otherwise; texts are quoted as in JSON, and a number that is not finite has no
literal.

| here | in the program |
| --- | --- |
| `Script.isIdentifier` | `is_valid_identifier` |
| `Script.isPath` | `is_simple_expression` |
| `Script.objectKey` | `object_key` |
| `Script.styleLiteral` | `style_literal` |
| `Script.styleObject` | `style_object` |
| `GenerationError`, `GenerationError.message` | `codegen` |
-/
namespace TemplateStyles

/-! ## Identifiers -/

namespace Script

def isIdentifierStart (c : Char) : Bool := c.isAlpha || c == '_' || c == '$'

def isIdentifierPart (c : Char) : Bool := c.isAlphanum || c == '_' || c == '$'

def isIdentifierChars : List Char → Bool
  | [] => false
  | c :: r => isIdentifierStart c && r.all isIdentifierPart

def isIdentifier (s : String) : Bool := isIdentifierChars s.toList

def isPath (s : String) : Bool := (s.toList.splitOn '.').all isIdentifierChars

end Script

/-! ## Errors -/

/-- Why no code was generated for a template. -/
inductive GenerationError where
  | nothingToDo
  | outOfRange (expression : Nat) (property : String) (count : Nat)
  | blankExpression (expression : Nat) (property : String)
  | noLiteral (property : String) (value : Binary64)
  | blankComponent
deriving DecidableEq

namespace GenerationError

def cause : GenerationError → String
  | nothingToDo => "nothing to materialize"
  | outOfRange expression property count =>
    "expression " ++ toString expression ++ " for '" ++ property ++ "' is out of range (" ++
      toString count ++ " expressions)"
  | blankExpression expression property =>
    "expression " ++ toString expression ++ " for '" ++ property ++ "' is empty"
  | noLiteral property value =>
    "'" ++ property ++ "' has a value with no JS literal form: " ++ value.layout .plain
  | blankComponent => "styled() target is empty"

def message (e : GenerationError) : String := "Code generation error: " ++ e.cause

end GenerationError

/-! ## Style objects -/

namespace Script

def objectKey (name : String) : String :=
  if isIdentifier name then name else Json.Quoted.encode name

/-- An object literal from the texts of its members. -/
def object : List String → String
  | [] => "\x7b\x7d"
  | members => "\x7b " ++ ", ".intercalate members ++ " \x7d"

def styleLiteral (property : String) : StyleValue → Except GenerationError String
  | .number x => if x.isFinite then .ok x.text else .error (.noLiteral property x)
  | .text s => .ok (Json.Quoted.encode s)

def styleMember (e : String × StyleValue) : Except GenerationError String :=
  (styleLiteral e.1 e.2).map (objectKey e.1 ++ ": " ++ ·)

def styleObject (m : StyleMap) : Except GenerationError String :=
  (m.entries.mapM styleMember).map object

end Script

end TemplateStyles
