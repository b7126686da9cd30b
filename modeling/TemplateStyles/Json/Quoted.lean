/-!
# JSON strings

`encode` writes a text between quotes: quote, backslash and control characters are escaped, the
five common controls by a letter and the others by four hexadecimal digits, and every other
character stands for itself. `scan?` reads such a text back up to the closing quote; it accepts
every escape of the format and refuses raw control characters. `join?` puts together what was read
and refuses surrogates that do not pair.
-/
namespace TemplateStyles.Json.Quoted

/-! ## Writing -/

def hexDigits : List Char :=
  ['0', '1', '2', '3', '4', '5', '6', '7', '8', '9', 'a', 'b', 'c', 'd', 'e', 'f']

def hexDigit (n : Nat) : Char := hexDigits.getD n '0'

/-- How one character is written inside quotes. -/
def encodeChar (c : Char) : List Char :=
  if c = '"' then ['\\', '"']
  else if c = '\\' then ['\\', '\\']
  else if c = '\x08' then ['\\', 'b']
  else if c = '\t' then ['\\', 't']
  else if c = '\n' then ['\\', 'n']
  else if c = '\x0c' then ['\\', 'f']
  else if c = '\r' then ['\\', 'r']
  else if c.toNat < 32 then
    ['\\', 'u', '0', '0', hexDigit (c.toNat / 16), hexDigit (c.toNat % 16)]
  else [c]

def encodeChars (s : List Char) : List Char := s.flatMap encodeChar

/-- The text between quotes. -/
def encode (s : String) : String := String.ofList ('"' :: encodeChars s.toList ++ ['"'])

/-! ## Reading -/

def hexValue? (c : Char) : Option Nat :=
  if '0' ≤ c ∧ c ≤ '9' then some (c.toNat - 48)
  else if 'a' ≤ c ∧ c ≤ 'f' then some (c.toNat - 87)
  else if 'A' ≤ c ∧ c ≤ 'F' then some (c.toNat - 55)
  else none

/-- The number that four hexadecimal digits write. -/
def unit? (a b c d : Char) : Option Nat := do
  let a ← hexValue? a
  let b ← hexValue? b
  let c ← hexValue? c
  let d ← hexValue? d
  return ((a * 16 + b) * 16 + c) * 16 + d

def isHighSurrogate (n : Nat) : Bool := 0xD800 ≤ n && n < 0xDC00

def isLowSurrogate (n : Nat) : Bool := 0xDC00 ≤ n && n < 0xE000

/-- What the letter after a backslash stands for. -/
def letter? (c : Char) : Option Char :=
  if c = '"' then some '"'
  else if c = '\\' then some '\\'
  else if c = '/' then some '/'
  else if c = 'b' then some '\x08'
  else if c = 'f' then some '\x0c'
  else if c = 'n' then some '\n'
  else if c = 'r' then some '\r'
  else if c = 't' then some '\t'
  else none

/-- What stands between quotes, piece by piece: a character, or a 16-bit unit given by number. -/
inductive Piece where
  | char (c : Char)
  | unit (n : Nat)
deriving DecidableEq, Repr

/-- The pieces of a string whose opening quote has been read, and what follows the closing
quote. -/
def scan? : List Char → Option (List Piece × List Char)
  | [] => none
  | '"' :: r => some ([], r)
  | '\\' :: 'u' :: a :: b :: c :: d :: r =>
    (unit? a b c d).bind fun n => (scan? r).map fun p => (.unit n :: p.1, p.2)
  | '\\' :: c :: r =>
    (letter? c).bind fun x => (scan? r).map fun p => (.char x :: p.1, p.2)
  | c :: r =>
    if c = '\\' ∨ c.toNat < 32 then none else (scan? r).map fun p => (.char c :: p.1, p.2)

/-- The characters of the pieces: two surrogates make one character, and none stands alone. -/
def join? : List Piece → Option (List Char)
  | [] => some []
  | .char c :: r => (join? r).map (c :: ·)
  | .unit n :: r =>
    if isLowSurrogate n then none
    else if isHighSurrogate n then
      match r with
      | .unit m :: r =>
        if isLowSurrogate m then
          (join? r).map (Char.ofNat (0x10000 + (n - 0xD800) * 0x400 + (m - 0xDC00)) :: ·)
        else none
      | _ => none
    else (join? r).map (Char.ofNat n :: ·)

/-- The text of a string, if its pieces make one. -/
def text? (pieces : List Piece) : Option String := (join? pieces).map String.ofList

end TemplateStyles.Json.Quoted
