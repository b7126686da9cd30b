import TemplateStyles.Json.Basic
import TemplateStyles.Json.Quoted
/-!
# Writing JSON

`compact` writes a value without any blanks, `pretty` one member or item a line, two blanks deeper
than its container. An empty array or object takes one line in both.
-/
namespace TemplateStyles.Json

mutual

def compact : Json → String
  | .null => "null"
  | .bool true => "true"
  | .bool false => "false"
  | .num n => n.text
  | .str s => Quoted.encode s
  | .arr items => "[" ++ ",".intercalate (compactItems items) ++ "]"
  | .obj members => "\x7b" ++ ",".intercalate (compactMembers members) ++ "\x7d"

def compactItems : List Json → List String
  | [] => []
  | x :: r => compact x :: compactItems r

def compactMembers : List (String × Json) → List String
  | [] => []
  | (k, x) :: r => (Quoted.encode k ++ ":" ++ compact x) :: compactMembers r

end

/-- The start of a line at the given depth. -/
def newLine (depth : Nat) : String := String.ofList ('\n' :: List.replicate (2 * depth) ' ')

/-- Lines between brackets, or the bare brackets if there are none. -/
def bracketed (opening closing : String) (depth : Nat) : List String → String
  | [] => opening ++ closing
  | lines =>
    opening ++ newLine (depth + 1) ++ ("," ++ newLine (depth + 1)).intercalate lines ++
      newLine depth ++ closing

mutual

/-- The value as it stands inside `depth` containers. -/
def prettyAt (depth : Nat) : Json → String
  | .null => "null"
  | .bool true => "true"
  | .bool false => "false"
  | .num n => n.text
  | .str s => Quoted.encode s
  | .arr items => bracketed "[" "]" depth (prettyItems (depth + 1) items)
  | .obj members => bracketed "\x7b" "\x7d" depth (prettyMembers (depth + 1) members)

def prettyItems (depth : Nat) : List Json → List String
  | [] => []
  | x :: r => prettyAt depth x :: prettyItems depth r

def prettyMembers (depth : Nat) : List (String × Json) → List String
  | [] => []
  | (k, x) :: r => (Quoted.encode k ++ ": " ++ prettyAt depth x) :: prettyMembers depth r

end

def pretty (v : Json) : String := prettyAt 0 v

end TemplateStyles.Json
