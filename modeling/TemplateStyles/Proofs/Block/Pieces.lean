import TemplateStyles.Proofs.Block.Declarations
/-!
# The pieces of a block

A block that is put together from blocks with semicolons between them has the pieces of each of
them in turn (`pieces_append`), and pieces that are joined are found again (`pieces_intercalate`).
Main result `ofText_isolated`: a piece that is no declaration changes nothing but the list of
skipped pieces, wherever it stands.
-/
namespace TemplateStyles.Block

/-! ## Joining and cutting -/

theorem pieces_append (a b : String) : pieces (a ++ ";" ++ b) = pieces a ++ pieces b := by
  have hsemicolon : (a ++ ";" ++ b).toList = a.toList ++ ';' :: b.toList := by simp
  rw [pieces, hsemicolon, List.splitOn_append_cons_self, List.map_append, List.filter_append,
    pieces, pieces]

/-- What stands between two semicolons is one piece, or none if it is blank. -/
theorem pieces_of_no_semicolon {m : String} (h : ';' ∉ m.toList) :
    pieces m = if Text.trim m = "" then [] else [Text.trim m] := by
  rw [pieces, List.splitOn_eq_singleton h, List.map_singleton, String.ofList_toList]
  by_cases hblank : Text.trim m = "" <;> simp [hblank]

/-- A text that is a piece of the blocks that it stands in. -/
structure IsPiece (piece : String) : Prop where
  tight : Text.IsTight piece.toList
  semicolon : ';' ∉ piece.toList

theorem isPiece_of_mem {css piece : String} (h : piece ∈ pieces css) : IsPiece piece := by
  obtain ⟨hmem, hblank⟩ := List.mem_filter.1 h
  obtain ⟨part, hpart, rfl⟩ := List.mem_map.1 hmem
  have hchars : (Text.trim (String.ofList part)).toList = Text.trimChars part := by
    rw [Text.toList_trim, String.toList_ofList]
  constructor <;> rw [hchars]
  · refine Text.isTight_trimChars fun hnil => of_decide_eq_true hblank ?_
    rw [Text.trim, String.toList_ofList, hnil]
  · intro hsemicolon
    simpa using Text.not_of_mem_splitOnP hpart ((Text.trimChars_isInfix part).subset hsemicolon)

/-- **Pieces that are joined are found again.** -/
theorem pieces_intercalate {ps : List String} (h : ∀ p ∈ ps, IsPiece p) :
    pieces (";".intercalate ps) = ps := by
  induction ps with
  | nil => decide
  | cons p rest ih =>
    have hp := h p (List.mem_cons_self ..)
    have hne : Text.trim p ≠ "" := by
      rw [Text.trim_of_isTight hp.tight]
      exact fun hnil => hp.tight.1 (String.toList_eq_nil_iff.2 hnil)
    have hpieces : pieces p = [p] := by
      rw [pieces_of_no_semicolon hp.semicolon, if_neg hne, Text.trim_of_isTight hp.tight]
    have hrest := ih fun q hq => h q (List.mem_cons_of_mem _ hq)
    cases rest with
    | nil => rw [String.intercalate_singleton, hpieces]
    | cons q rest => rw [String.intercalate_cons_cons, pieces_append, hpieces, hrest]; rfl

theorem declarations_intercalate_pieces {ps : List String} (h : ∀ p ∈ ps, IsPiece p) :
    declarations (";".intercalate ps) = ps.filterMap Declaration.ofText? := by
  rw [declarations, pieces_intercalate h]

/-! ## Pieces that are no declarations -/

theorem declarations_append (a b : String) :
    declarations (a ++ ";" ++ b) = declarations a ++ declarations b := by
  rw [declarations, pieces_append, List.filterMap_append, declarations, declarations]

theorem skipped_ofText (css : String) : (ofText css).findings.skipped =
    (pieces css).filter fun piece => (Declaration.ofText? piece).isNone := by
  rw [findings_ofText]

theorem skipped_append (a b : String) : (ofText (a ++ ";" ++ b)).findings.skipped =
    (ofText a).findings.skipped ++ (ofText b).findings.skipped := by
  simp only [skipped_ofText, pieces_append, List.filter_append]

/-- A block is known from its declarations and from what is skipped in it. -/
theorem ofText_congr {css css' : String} (h : declarations css = declarations css') :
    ofText css = ⟨(ofText css').rule, ⟨(ofText css).findings.skipped,
      (ofText css').findings.unknown, (ofText css').findings.ambiguous,
      (ofText css').findings.relocated⟩⟩ := by
  have hrule : (ofText css).rule = (ofText css').rule := by rw [rule_ofText, rule_ofText, h]
  rw [← hrule, findings_ofText css', ← h, skipped_ofText, ← findings_ofText css]

/-- **What is no declaration is skipped by itself.** A text between two semicolons that is no
declaration leaves the rule of a block as it is, and of the findings it changes the list of skipped
pieces only: it is one of them, unless it is blank, and stands between those before and those
behind it. -/
theorem ofText_isolated (a b : String) {m : String} (hsemicolon : ';' ∉ m.toList)
    (hmalformed : Declaration.ofText? (Text.trim m) = none) :
    let skipped := fun css => (ofText css).findings.skipped
    let around := ofText (a ++ ";" ++ b)
    around.findings.skipped = skipped a ++ skipped b ∧
      ofText (a ++ ";" ++ m ++ ";" ++ b) = ⟨around.rule, { around.findings with
        skipped :=
          skipped a ++ (if Text.trim m = "" then [] else [Text.trim m]) ++ skipped b }⟩ := by
  intro skipped around
  have hdeclarations : declarations m = [] := by
    rw [declarations, pieces_of_no_semicolon hsemicolon]
    split <;> simp [hmalformed]
  have hskipped : skipped m = if Text.trim m = "" then [] else [Text.trim m] := by
    show (ofText m).findings.skipped = _
    rw [skipped_ofText, pieces_of_no_semicolon hsemicolon]
    split <;> simp [hmalformed]
  have hsame : declarations (a ++ ";" ++ m ++ ";" ++ b) = declarations (a ++ ";" ++ b) := by
    rw [declarations_append, declarations_append, hdeclarations, List.append_nil,
      declarations_append]
  refine ⟨skipped_append a b, ?_⟩
  rw [ofText_congr hsame, skipped_append, skipped_append, ← hskipped]

/-- A value without a name, between two writes of one property. -/
theorem ofText_isolated_unnamed :
    ';' ∉ " : 4px\n".toList ∧ Declaration.ofText? (Text.trim " : 4px\n") = none ∧
      ofText "color red; color: red; : 4px\n;color: blue; width:" =
        ⟨(ofText "color red; color: red;color: blue; width:").rule,
          ⟨["color red", ": 4px", "width:"], [], [], []⟩⟩ := by
  have hsemicolon : ';' ∉ " : 4px\n".toList := by decide
  have hmalformed : Declaration.ofText? (Text.trim " : 4px\n") = none := by decide
  refine ⟨hsemicolon, hmalformed, ?_⟩
  obtain ⟨-, hsame⟩ :=
    ofText_isolated "color red; color: red" "color: blue; width:" hsemicolon hmalformed
  exact hsame.trans (by decide +kernel)

end TemplateStyles.Block
