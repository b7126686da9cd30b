import TemplateStyles.Toml.Scalar
import TemplateStyles.Toml.Table
import TemplateStyles.Toml.Text
/-!
# Reading TOML

A document is a row of lines: keys with values, and headers that say which table the next keys
belong to. Values may be arrays and inline tables, nested less than eighty deep. `Toml.read?` gives
the members of the top table.
-/
namespace TemplateStyles.Toml

/-! ## Blanks and comments -/

/-- A comment, if there is one, up to the end of its line. -/
def skipComment? : List Char → Option (List Char)
  | '#' :: r =>
    let rest := r.dropWhile isPlain
    if rest = [] ∨ (newline? rest).isSome then some rest else none
  | s => some s

/-- The rest of a line that has nothing more to say, and its break. -/
def endLine? (s : List Char) : Option (List Char) :=
  (skipComment? (skipBlanks s)).bind fun rest => if rest = [] then some [] else newline? rest

/-- Blanks, comments and line breaks inside an array; `steps` bounds the number of lines. -/
def skipLines? : Nat → List Char → Option (List Char)
  | 0, s => some s
  | steps + 1, s =>
    (skipComment? (skipBlanks s)).bind fun rest =>
      match newline? rest with
      | some rest => skipLines? steps rest
      | none => some rest

/-! ## Keys -/

def isBare (c : Char) : Bool := c.isAlphanum || c == '_' || c == '-'

/-- One name of a key. -/
def readName? (s : List Char) : Reading String :=
  match s with
  | '"' :: r => (readString (r.length + 1) r).map fun p => (String.ofList p.1, p.2)
  | '\'' :: r => (readLiteral r).map fun p => (String.ofList p.1, p.2)
  | s =>
    if s.takeWhile isBare = [] then none
    else some (String.ofList (s.takeWhile isBare), s.dropWhile isBare)

/-- Names with dots between them; what follows starts with no blank. -/
def readKey? : Nat → List Char → Option (List String × List Char)
  | 0, _ => none
  | steps + 1, s => do
    let (name, rest) ← readName? s
    match skipBlanks rest with
    | '.' :: rest =>
      let (names, rest) ← readKey? steps (skipBlanks rest)
      return (name :: names, rest)
    | rest => return ([name], rest)

/-! ## Values -/

/-- The items of an array, its bracket already read. -/
def readItems? (value : List Char → Reading Value) :
    Nat → List Char → Option (List Value × List Char)
  | 0, _ => none
  | steps + 1, s => do
    match ← skipLines? s.length s with
    | ']' :: rest => return ([], rest)
    | s =>
      let (v, rest) ← value s
      match ← skipLines? rest.length rest with
      | ',' :: rest =>
        let (vs, rest) ← readItems? value steps rest
        return (v :: vs, rest)
      | ']' :: rest => return ([v], rest)
      | _ => none

/-- A key and a value, with what follows them. -/
def readPair? (value : List Char → Reading Value) (s : List Char) :
    Option ((List String × Value) × List Char) := do
  let (key, rest) ← readKey? s.length s
  match rest with
  | '=' :: rest =>
    let (v, rest) ← value (skipBlanks rest)
    return ((key, v), rest)
  | _ => none

/-- A value given to a dotted key. -/
def assignKey (key : List String) (v : Value) (m : Members) : Option Members :=
  key.getLast?.bind fun last => Members.assign v last key.dropLast m

/-- The members of an inline table up to its brace; at least one is left. -/
def readPairs? (value : List Char → Reading Value) :
    Nat → Members → List Char → Option (Members × List Char)
  | 0, _, _ => none
  | steps + 1, m, s => do
    let ((key, v), rest) ← readPair? value s
    let m ← assignKey key v m
    match skipBlanks rest with
    | ',' :: rest => readPairs? value steps m (skipBlanks rest)
    | '\x7d' :: rest => return (m, rest)
    | _ => none

/-- A value that is no array and no table. -/
def readSimple? (s : List Char) : Reading Value :=
  match readText? s with
  | some (text, rest) => some (.text text, rest)
  | none =>
    let (written, rest) := takeScalar s
    if written = "true".toList then some (.bool true, rest)
    else if written = "false".toList then some (.bool false, rest)
    else if isScalar written then some (.scalar (String.ofList written), rest)
    else none

/-- A value with at most `depth` arrays and inline tables inside each other. -/
def readValue? : Nat → List Char → Reading Value
  | 0, '[' :: _ | 0, '\x7b' :: _ => none
  | 0, s => readSimple? s
  | depth + 1, '[' :: r => (readItems? (readValue? depth) (r.length + 1) r).map fun p =>
      (.array p.1, p.2)
  | depth + 1, '\x7b' :: r =>
    match skipBlanks r with
    | '\x7d' :: rest => some (.table [], rest)
    | s => (readPairs? (readValue? depth) (s.length + 1) [] s).map fun p =>
        (.table (Members.toValues p.1), p.2)
  | _ + 1, s => readSimple? s

def depthLimit : Nat := 79

/-! ## Documents -/

/-- What has been read: all tables, and the names that lead to the one of the last header. -/
structure Document where
  members : Members
  current : List String

namespace Document

def start : Document := ⟨[], []⟩

/-- A header: its names, and how the table of the last one is opened. -/
def openWith (d : Document) (key : List String)
    (openLast : String → Members → Option Members) : Option Document :=
  key.getLast?.bind fun last =>
    (Members.within (openLast last) key.dropLast d.members).map (⟨·, key⟩)

/-- One line, which starts with no blank. -/
def readLine? (d : Document) (s : List Char) : Option (Document × List Char) := do
  match s with
  | '[' :: '[' :: r =>
    let (key, rest) ← readKey? r.length (skipBlanks r)
    match rest with
    | ']' :: ']' :: rest => return (← d.openWith key Members.openElement, ← endLine? rest)
    | _ => none
  | '[' :: r =>
    let (key, rest) ← readKey? r.length (skipBlanks r)
    match rest with
    | ']' :: rest => return (← d.openWith key Members.openTable, ← endLine? rest)
    | _ => none
  | s =>
    match endLine? s with
    | some rest => return (d, rest)
    | none =>
      let ((key, v), rest) ← readPair? (readValue? depthLimit) s
      let m ← Members.within (assignKey key v) d.current d.members
      return (⟨m, d.current⟩, ← endLine? rest)

/-- All lines; `steps` bounds their number. -/
def readLines? : Nat → Document → List Char → Option Document
  | _, d, [] => some d
  | 0, _, _ :: _ => none
  | steps + 1, d, s => (d.readLine? (skipBlanks s)).bind fun p => readLines? steps p.1 p.2

end Document

/-- A document may start with a byte order mark. -/
def dropMark : List Char → List Char
  | '\ufeff' :: r => r
  | s => s

/-- The members of the top table of a document. -/
def read? (text : String) : Option (List (String × Value)) :=
  let s := dropMark text.toList
  (Document.start.readLines? s.length s).map fun d => Members.toValues d.members

end TemplateStyles.Toml
