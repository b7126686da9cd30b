/-!
# TOML strings

Strings between double quotes have escapes, strings between single quotes have none, and three
quotes instead of one make a string of several lines. Each reader starts behind the opening quotes
and gives the text and what follows the closing ones.
-/
namespace TemplateStyles.Toml

abbrev Reading (α : Type) := Option (α × List Char)

/-- A character that may stand in a string or a comment: no control except the tab. -/
def isPlain (c : Char) : Bool := c == '\t' || (' ' ≤ c && c ≠ '\x7f')

def hexValue? (c : Char) : Option Nat :=
  if '0' ≤ c ∧ c ≤ '9' then some (c.toNat - 48)
  else if 'a' ≤ c ∧ c ≤ 'f' then some (c.toNat - 87)
  else if 'A' ≤ c ∧ c ≤ 'F' then some (c.toNat - 55)
  else none

/-- The character with the number that hexadecimal digits write. -/
def codePoint? (digits : List Char) : Option Char := do
  let n ← digits.foldlM (fun n d => (hexValue? d).map (16 * n + ·)) 0
  if n.isValidChar then some (Char.ofNat n) else none

def letter? (c : Char) : Option Char :=
  match c with
  | '"' => some '"'
  | '\\' => some '\\'
  | 'b' => some '\x08'
  | 'f' => some '\x0c'
  | 'n' => some '\n'
  | 'r' => some '\r'
  | 't' => some '\t'
  | _ => none

/-- The character that an escape stands for, its backslash already read. -/
def escape? : List Char → Reading Char
  | 'u' :: a :: b :: c :: d :: r => (codePoint? [a, b, c, d]).map (·, r)
  | 'U' :: a :: b :: c :: d :: e :: f :: g :: h :: r =>
    (codePoint? [a, b, c, d, e, f, g, h]).map (·, r)
  | c :: r => (letter? c).map (·, r)
  | [] => none

/-- A line break. -/
def newline? : List Char → Option (List Char)
  | '\n' :: r | '\r' :: '\n' :: r => some r
  | _ => none

def skipBlanks (s : List Char) : List Char := s.dropWhile fun c => c == ' ' || c == '\t'

def isBlankOrBreak (c : Char) : Bool := c == ' ' || c == '\t' || c == '\n' || c == '\r'

/-- A character put in front of a text that is read from what follows. -/
def withChar (c : Char) (r : Reading (List Char)) : Reading (List Char) :=
  r.map fun p => (c :: p.1, p.2)

/-- A string of one line; `steps` bounds the number of its characters. -/
def readString : Nat → List Char → Reading (List Char)
  | 0, _ => none
  | _, [] => none
  | _ + 1, '"' :: r => some ([], r)
  | steps + 1, '\\' :: r => (escape? r).bind fun p => withChar p.1 (readString steps p.2)
  | steps + 1, c :: r => if isPlain c then withChar c (readString steps r) else none

/-- A string of one line without escapes. -/
def readLiteral : List Char → Reading (List Char)
  | [] => none
  | '\'' :: r => some ([], r)
  | c :: r => if isPlain c then withChar c (readLiteral r) else none

/-- The end of a string of several lines, behind three quotes: up to two more belong to the text. -/
def closeLong (quote : Char) (r : List Char) : List Char × List Char :=
  let extra := (r.takeWhile (· == quote)).take 2
  (extra, r.drop extra.length)

/-- A string of several lines. A backslash at the end of a line takes all blanks and breaks behind
it away. -/
def readLongString : Nat → List Char → Reading (List Char)
  | 0, _ => none
  | _, [] => none
  | _ + 1, '"' :: '"' :: '"' :: r => some (closeLong '"' r)
  | steps + 1, '\\' :: r =>
    match newline? (skipBlanks r) with
    | some rest => readLongString steps (rest.dropWhile isBlankOrBreak)
    | none => (escape? r).bind fun p => withChar p.1 (readLongString steps p.2)
  | steps + 1, c :: r =>
    match newline? (c :: r) with
    | some rest => withChar '\n' (readLongString steps rest)
    | none => if isPlain c then withChar c (readLongString steps r) else none

/-- A string of several lines without escapes. -/
def readLongLiteral : Nat → List Char → Reading (List Char)
  | 0, _ => none
  | _, [] => none
  | _ + 1, '\'' :: '\'' :: '\'' :: r => some (closeLong '\'' r)
  | steps + 1, c :: r =>
    match newline? (c :: r) with
    | some rest => withChar '\n' (readLongLiteral steps rest)
    | none => if isPlain c then withChar c (readLongLiteral steps r) else none

/-- A line break right behind the opening quotes does not count. -/
def dropNewline (s : List Char) : List Char := (newline? s).getD s

/-- A string of any kind. -/
def readText? (s : List Char) : Reading String :=
  let text : Reading (List Char) → Reading String :=
    Option.map fun p => (String.ofList p.1, p.2)
  match s with
  | '"' :: '"' :: '"' :: r => text (readLongString (r.length + 1) (dropNewline r))
  | '\'' :: '\'' :: '\'' :: r => text (readLongLiteral (r.length + 1) (dropNewline r))
  | '"' :: r => text (readString (r.length + 1) r)
  | '\'' :: r => text (readLiteral r)
  | _ => none

end TemplateStyles.Toml
