import TemplateStyles.Number.Layout
import TemplateStyles.Text.Printable
/-!
# Value dumps

A value as a tree of named records, variants, lists and maps, written with one part a line, four
blanks deeper than the part it belongs to. `Dump.quote` writes a text so that nothing in it is
invisible.
-/
namespace TemplateStyles

inductive Dump where
  /-- A text that stands as it is. -/
  | plain (text : String)
  /-- Named fields. -/
  | record (name : String) (fields : List (String × Dump))
  /-- A case of a choice, with its values. -/
  | variant (name : String) (values : List Dump)
  | list (items : List Dump)
  /-- Values under texts. -/
  | map (entries : List (String × Dump))
deriving Inhabited

namespace Dump

/-! ## Texts -/

def hexDigits (n : Nat) : List Char := Nat.toDigits 16 n

def quoteChar (c : Char) : List Char :=
  if c = '"' then ['\\', '"']
  else if c = '\\' then ['\\', '\\']
  else if c = '\n' then ['\\', 'n']
  else if c = '\t' then ['\\', 't']
  else if c = '\r' then ['\\', 'r']
  else if c = '\x00' then ['\\', '0']
  else if Text.isPrintable c then [c]
  else ['\\', 'u', '\x7b'] ++ hexDigits c.toNat ++ ['\x7d']

def quote (s : String) : String :=
  String.ofList ('"' :: s.toList.flatMap quoteChar ++ ['"'])

/-! ## Layout -/

/-- The start of a line at the given depth. -/
def newLine (depth : Nat) : String := String.ofList ('\n' :: List.replicate (4 * depth) ' ')

/-- Lines between brackets, a comma behind each; the bare brackets if there are none. -/
def bracketed (opening closing : String) (depth : Nat) : List String → String
  | [] => opening ++ closing
  | lines =>
    opening ++ String.join (lines.map fun l => newLine (depth + 1) ++ l ++ ",") ++
      newLine depth ++ closing

mutual

/-- The text of a value whose first line stands at the given depth. -/
def textAt (depth : Nat) : Dump → String
  | .plain text => text
  | .record name fields => name ++ bracketed " \x7b" "\x7d" depth (fieldTexts (depth + 1) fields)
  | .variant name values => name ++ bracketed "(" ")" depth (itemTexts (depth + 1) values)
  | .list items => bracketed "[" "]" depth (itemTexts (depth + 1) items)
  | .map entries => bracketed "\x7b" "\x7d" depth (entryTexts (depth + 1) entries)

def itemTexts (depth : Nat) : List Dump → List String
  | [] => []
  | x :: r => textAt depth x :: itemTexts depth r

def fieldTexts (depth : Nat) : List (String × Dump) → List String
  | [] => []
  | (name, x) :: r => (name ++ ": " ++ textAt depth x) :: fieldTexts depth r

def entryTexts (depth : Nat) : List (String × Dump) → List String
  | [] => []
  | (key, x) :: r => (quote key ++ ": " ++ textAt depth x) :: entryTexts depth r

end

def text (d : Dump) : String := d.textAt 0

/-! ## Values -/

def ofText (s : String) : Dump := .plain (quote s)

def ofNat (n : Nat) : Dump := .plain (toString n)

def ofBool (b : Bool) : Dump := .plain (if b then "true" else "false")

def ofNumber (x : Binary64) : Dump := .plain (x.layout .debug)

def ofTexts (texts : List String) : Dump := .list (texts.map ofText)

def ofOption : Option Dump → Dump
  | none => .plain "None"
  | some d => .variant "Some" [d]

end Dump

end TemplateStyles
