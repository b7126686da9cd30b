import TemplateStyles.Json.Quoted
import TemplateStyles.Json.Written
/-!
# Reading JSON

A document is cut into tokens (`tokens?`), and a machine with a stack of open arrays and objects
(`ReaderState.step?`) builds the document from them, one token at a time. `Json.read?` gives the
document as it is written; `Json.ofText?` gives the value that a program may work with: objects are
maps, and at most 127 arrays and objects are open at once.
-/
namespace TemplateStyles.Json

/-! ## Tokens -/

inductive Token where
  | openObject
  | closeObject
  | openArray
  | closeArray
  | comma
  | colon
  | text (s : Option String)
  | scalar (v : Option Json)
deriving Inhabited

/-- The blanks of the format: space, tab and the two line breaks. -/
def isSpace (c : Char) : Bool := c == ' ' || c == '\t' || c == '\n' || c == '\r'

/-- The token at the front of a text that does not start with a blank, and what follows it. -/
def scanToken? : List Char → Option (Token × List Char)
  | [] => none
  | '\x7b' :: r => some (.openObject, r)
  | '\x7d' :: r => some (.closeObject, r)
  | '[' :: r => some (.openArray, r)
  | ']' :: r => some (.closeArray, r)
  | ',' :: r => some (.comma, r)
  | ':' :: r => some (.colon, r)
  | 'n' :: 'u' :: 'l' :: 'l' :: r => some (.scalar (some .null), r)
  | 't' :: 'r' :: 'u' :: 'e' :: r => some (.scalar (some (.bool true)), r)
  | 'f' :: 'a' :: 'l' :: 's' :: 'e' :: r => some (.scalar (some (.bool false)), r)
  | '"' :: r => (Quoted.scan? r).map fun p => (.text (Quoted.text? p.1), p.2)
  | s => (scanNumber? s).map fun p => (.scalar (p.1.toNumber?.map .num), p.2)

/-- The tokens of a text; each takes at least one character, so the text's length bounds their
number. -/
def tokensWithin? : Nat → List Char → Option (List Token)
  | _, [] => some []
  | 0, _ :: _ => none
  | n + 1, c :: r =>
    if isSpace c then tokensWithin? n r
    else (scanToken? (c :: r)).bind fun p => (tokensWithin? n p.2).map (p.1 :: ·)

def tokens? (s : List Char) : Option (List Token) := tokensWithin? s.length s

/-! ## The machine -/

/-- An array or object that is still open, with what it has so far, the latest first. -/
inductive Frame where
  | array (items : List Written)
  | object (members : List (Option String × Written))
  | member (members : List (Option String × Written)) (key : Option String)

/-- What may come next. -/
inductive Expecting where
  | value
  | itemOrClose
  | keyOrClose
  | key
  | colon
  | commaOrClose
  | nothing (result : Written)

structure ReaderState where
  frames : List Frame
  expecting : Expecting

namespace ReaderState

def start : ReaderState := ⟨[], .value⟩

/-- A value has ended inside the given frames. -/
def complete (v : Written) : List Frame → Option ReaderState
  | [] => some ⟨[], .nothing v⟩
  | .array items :: fs => some ⟨.array (v :: items) :: fs, .commaOrClose⟩
  | .member members key :: fs => some ⟨.object ((key, v) :: members) :: fs, .commaOrClose⟩
  | .object _ :: _ => none

/-- A token where a value must start. -/
def startValue (fs : List Frame) : Token → Option ReaderState
  | .scalar v => complete (.leaf v) fs
  | .text s => complete (.leaf (s.map .str)) fs
  | .openArray => some ⟨.array [] :: fs, .itemOrClose⟩
  | .openObject => some ⟨.object [] :: fs, .keyOrClose⟩
  | _ => none

/-- A token where a key must stand. -/
def startKey : List Frame → Token → Option ReaderState
  | .object members :: fs, .text key => some ⟨.member members key :: fs, .colon⟩
  | _, _ => none

/-- A token after a value: the next one follows, or the innermost frame ends. -/
def continueOrClose : List Frame → Token → Option ReaderState
  | .array items :: fs, .comma => some ⟨.array items :: fs, .value⟩
  | .object members :: fs, .comma => some ⟨.object members :: fs, .key⟩
  | .array items :: fs, .closeArray => complete (.arr items.reverse) fs
  | .object members :: fs, .closeObject => complete (.obj members.reverse) fs
  | _, _ => none

def step? (st : ReaderState) (t : Token) : Option ReaderState :=
  match st.expecting, t with
  | .value, t => startValue st.frames t
  | .itemOrClose, .closeArray => continueOrClose st.frames .closeArray
  | .itemOrClose, t => startValue st.frames t
  | .keyOrClose, .closeObject => continueOrClose st.frames .closeObject
  | .keyOrClose, t | .key, t => startKey st.frames t
  | .colon, .colon => some ⟨st.frames, .value⟩
  | .colon, _ => none
  | .commaOrClose, t => continueOrClose st.frames t
  | .nothing _, _ => none

def run? : ReaderState → List Token → Option ReaderState
  | st, [] => some st
  | st, t :: ts => (st.step? t).bind fun st => st.run? ts

def result? (st : ReaderState) : Option Written :=
  match st.expecting with
  | .nothing v => some v
  | _ => none

end ReaderState

/-! ## Documents -/

/-- The document that a text writes. -/
def read? (s : String) : Option Written :=
  (tokens? s.toList).bind fun ts => (ReaderState.start.run? ts).bind ReaderState.result?

/-- How many arrays and objects may be open at once. -/
def depthLimit : Nat := 127

/-- The value that a text writes, if it is not too deep; its keys may repeat. -/
def valueOf? (s : String) : Option Json :=
  ((read? s).filter fun w => w.depth ≤ depthLimit).bind Written.value?

/-- The value that a text stands for, within the limits of the format. -/
def ofText? (s : String) : Option Json := (valueOf? s).map settled

end TemplateStyles.Json
