/-!
# Command line arguments

Arguments are read from left to right against a list of the options that a command knows. An
option is written `--name` or `-n`; its value follows behind `=`, directly behind the letter, or as
the next argument. Letters of options without values may stand together. Behind `--` nothing is an
option. What is wrong, or asks for help, ends the reading where it stands.
-/
namespace TemplateStyles.CommandLine

structure OptionSpec where
  name : String
  letter : Option Char
  takesValue : Bool
  /-- Whether it may be given more than once. -/
  repeats : Bool
  /-- The values that it takes; any value if there are none listed. -/
  values : List String
deriving Repr

/-- The end of a command line that asks for nothing to be done. -/
inductive Usage where
  | help
  | version
  | invalid
deriving DecidableEq, Repr

/-- What has been read so far. -/
structure Given where
  /-- Options with their values, the latest first. -/
  options : List (String × String)
  /-- Arguments that are no options, in order. -/
  operands : List String
deriving DecidableEq, Repr

structure CommandSpec where
  options : List OptionSpec
  /-- Whether the command has a version to show. -/
  hasVersion : Bool
  /-- How many arguments it takes that are no options. -/
  operands : Nat
deriving Repr

namespace Given

def empty : Given := ⟨[], []⟩

def value? (g : Given) (name : String) : Option String := g.options.lookup name

def has (g : Given) (name : String) : Bool := (g.value? name).isSome

/-- Notes an option. -/
def addOption (g : Given) (o : OptionSpec) (value : String) : Except Usage Given :=
  if g.has o.name ∧ ¬ o.repeats then .error .invalid
  else if o.values ≠ [] ∧ value ∉ o.values then .error .invalid
  else .ok { g with options := (o.name, value) :: g.options }

/-- Notes an argument that is no option. -/
def addOperand (g : Given) (limit : Nat) (value : String) : Except Usage Given :=
  if g.operands.length < limit then .ok { g with operands := g.operands ++ [value] }
  else .error .invalid

end Given

/-- What an argument leaves behind: all is done, or an option waits for its value. -/
structure Progress where
  given : Given
  waiting : Option OptionSpec

namespace CommandSpec

def find? (s : CommandSpec) (name : String) : Option OptionSpec :=
  s.options.find? (·.name = name)

def findLetter? (s : CommandSpec) (c : Char) : Option OptionSpec :=
  s.options.find? (·.letter = some c)

/-- An option by its full name, perhaps with a value behind `=`. -/
def readLong (s : CommandSpec) (g : Given) (text : List Char) : Except Usage Progress :=
  let name := String.ofList (text.takeWhile (· ≠ '='))
  match s.find? name, text.dropWhile (· ≠ '=') with
  | some o, [] => if o.takesValue then .ok ⟨g, some o⟩ else (g.addOption o "").map (⟨·, none⟩)
  | some o, _ :: value =>
    if o.takesValue then (g.addOption o (String.ofList value)).map (⟨·, none⟩)
    else .error .invalid
  | none, [] =>
    if name = "help" then .error .help
    else if name = "version" ∧ s.hasVersion then .error .version
    else .error .invalid
  | none, _ :: _ => .error .invalid

/-- Options by their letters. What follows a letter that takes a value is the value. -/
def readLetters (s : CommandSpec) : Given → List Char → Except Usage Progress
  | g, [] => .ok ⟨g, none⟩
  | g, c :: r =>
    match s.findLetter? c with
    | some o =>
      if o.takesValue then
        match r with
        | [] => .ok ⟨g, some o⟩
        | '=' :: value => (g.addOption o (String.ofList value)).map (⟨·, none⟩)
        | value => (g.addOption o (String.ofList value)).map (⟨·, none⟩)
      else (g.addOption o "").bind fun g => s.readLetters g r
    | none =>
      if c = 'h' then .error .help
      else if c = 'V' ∧ s.hasVersion then .error .version
      else .error .invalid

/-- The operands behind `--`. -/
def readOperands (s : CommandSpec) : Given → List String → Except Usage Given
  | g, [] => .ok g
  | g, a :: r => (g.addOperand s.operands a).bind fun g => s.readOperands g r

/-- Reads arguments up to the first operand for which `stops` holds; also what follows, that operand
first. -/
def read (s : CommandSpec) (stops : String → Bool) :
    Given → List String → Except Usage (Given × List String)
  | g, [] => .ok (g, [])
  | g, a :: r =>
    match a.toList with
    | ['-', '-'] => (s.readOperands g r).map (·, [])
    | '-' :: '-' :: text => (s.readLong g text).bind fun p => next p r
    | '-' :: c :: text => (s.readLetters g (c :: text)).bind fun p => next p r
    | _ =>
      if stops a then .ok (g, a :: r)
      else (g.addOperand s.operands a).bind fun g => s.read stops g r
where
  /-- Goes on, with the value that an option waits for. -/
  next (p : Progress) : List String → Except Usage (Given × List String)
    | [] => if p.waiting.isSome then .error .invalid else .ok (p.given, [])
    | a :: r =>
      match p.waiting with
      | none => s.read stops p.given (a :: r)
      | some o =>
        match a.toList with
        | '-' :: _ :: _ => .error .invalid
        | _ => (p.given.addOption o a).bind fun g => s.read stops g r

end CommandSpec

end TemplateStyles.CommandLine
