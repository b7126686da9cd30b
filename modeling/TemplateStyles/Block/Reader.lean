import TemplateStyles.Block.Rule
/-!
# Reading declaration blocks

A block is a row of declarations with semicolons between them. Reading never fails: what is no
declaration is skipped, an unknown property is kept, and all of this is listed in the `Findings`.

| here | in the program |
| --- | --- |
| `Findings`, `Findings.isClean` | `ParseDiagnostics`, `is_clean` |
| `Block.pieces`, `Block.addPiece`, `Block.ofText` | `parse`, `parse_css` |
| `Block.relocate` | `relocate_leftover_placeholders` |
-/
namespace TemplateStyles

/-- What was noticed in a block and did not stop its reading. -/
structure Findings where
  /-- Pieces without colon, or with nothing on one side of it. -/
  skipped : List String
  /-- Properties that the target platform does not define; they are kept. -/
  unknown : List String
  /-- Box shorthands that are kept as one value. -/
  ambiguous : List String
  /-- Fixed properties that held a marker. -/
  relocated : List String
deriving DecidableEq, Repr

namespace Findings

def none : Findings := ⟨[], [], [], []⟩

instance : Inhabited Findings := ⟨none⟩

def all (f : Findings) : List String := f.skipped ++ f.unknown ++ f.ambiguous ++ f.relocated

def isClean (f : Findings) : Bool := f.all.isEmpty

def addSkipped (f : Findings) (piece : String) : Findings :=
  { f with skipped := f.skipped ++ [piece] }

def addDeclaration (f : Findings) (d : Declaration) : Findings :=
  { f with
    unknown := f.unknown ++ if Property.isKnown d.canonical then [] else [d.canonical]
    ambiguous := f.ambiguous ++ if d.isAmbiguous then [d.text] else [] }

end Findings

/-- A rule with the findings of the text it was read from. -/
structure Block where
  rule : StyleRule
  findings : Findings
deriving DecidableEq

namespace Block

def empty : Block := ⟨.empty, .none⟩

instance : Inhabited Block := ⟨empty⟩

/-- The texts between semicolons, without outer blanks; blank ones are left out. -/
def pieces (css : String) : List String :=
  ((css.toList.splitOn ';').map (fun s => Text.trim (String.ofList s))).filter (· ≠ "")

/-- Adds one piece of a block. -/
def addPiece (b : Block) (piece : String) : Block :=
  match Declaration.ofText? piece with
  | .none => { b with findings := b.findings.addSkipped piece }
  | some d => ⟨b.rule.apply d.write, b.findings.addDeclaration d⟩

/-- A fixed value must not hold a marker: moves those that do to the dynamic part. -/
def relocate (b : Block) : Block :=
  ⟨b.rule.relocate, { b.findings with
    relocated := b.findings.relocated ++ b.rule.misplaced.map Prod.fst }⟩

/-- The block as its declarations leave it. -/
def ofPieces (pieces : List String) : Block := pieces.foldl addPiece empty

def ofText (css : String) : Block := (ofPieces (pieces css)).relocate

end Block

end TemplateStyles
