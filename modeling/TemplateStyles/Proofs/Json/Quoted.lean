import TemplateStyles.Json.Quoted
/-!
# Strings in documents are read back

Every character is written as one piece that `scan?` takes off the front (`scan?_encodeChar`), and
the pieces of a text join to this text, since no surrogate is written by its number. Main results
`scan?_encodeChars`, `text?_pieces` and `encode_append_inj`: a string says which text it writes,
and where it ends.
-/
namespace TemplateStyles.Json.Quoted

/-- What is read where a character was written: controls without a letter are written by their
numbers. -/
def piece (c : Char) : Piece :=
  if c.toNat < 32 ∧ c ∉ ['\x08', '\t', '\n', '\x0c', '\r'] then .unit c.toNat else .char c

/-! ## One character -/

theorem hexValue?_hexDigit : ∀ n < 16, hexValue? (hexDigit n) = some n := by decide

/-- Two hexadecimal digits behind two zeros write a number below 256. -/
theorem unit?_hexDigits {n : Nat} (h : n < 256) :
    unit? '0' '0' (hexDigit (n / 16)) (hexDigit (n % 16)) = some n := by
  have hzero : hexValue? '0' = some 0 := by decide
  have hhigh := hexValue?_hexDigit (n / 16) (by omega)
  have hlow := hexValue?_hexDigit (n % 16) (by omega)
  simp only [unit?, hzero, hhigh, hlow]
  exact congrArg some (by omega)

/-- **A written character is read as its piece.** -/
theorem scan?_encodeChar (c : Char) (r : List Char) :
    scan? (encodeChar c ++ r) = (scan? r).map fun p => (piece c :: p.1, p.2) := by
  -- the quote, the backslash and five controls are written by a letter
  by_cases hletter : c ∈ ['"', '\\', '\x08', '\t', '\n', '\x0c', '\r']
  · simp only [List.mem_cons, List.not_mem_nil, or_false] at hletter
    rcases hletter with rfl | rfl | rfl | rfl | rfl | rfl | rfl <;> rfl
  simp only [List.mem_cons, List.not_mem_nil, or_false, not_or] at hletter
  obtain ⟨hquote, hslash, hback, htab, hline, hform, hreturn⟩ := hletter
  rw [encodeChar, if_neg hquote, if_neg hslash, if_neg hback, if_neg htab, if_neg hline,
    if_neg hform, if_neg hreturn]
  split
  · rename_i hcontrol
    have hpiece : piece c = .unit c.toNat :=
      if_pos ⟨hcontrol, by simp [hback, htab, hline, hform, hreturn]⟩
    have hunit := unit?_hexDigits (n := c.toNat) (by omega)
    simp only [List.cons_append, List.nil_append, scan?, hunit, Option.bind_some, hpiece]
  · rename_i hcontrol
    have hpiece : piece c = .char c := if_neg fun h => hcontrol h.1
    rw [List.singleton_append, scan?]
    · simp [hslash, hcontrol, hpiece]
    · exact hquote
    · exact fun _ _ _ _ _ h => absurd h hslash
    · exact fun _ _ h => absurd h hslash

theorem scan?_encodeChars (s r : List Char) :
    scan? (encodeChars s ++ '"' :: r) = some (s.map piece, r) := by
  induction s with
  | nil => rfl
  | cons c s ih =>
    rw [encodeChars, List.flatMap_cons, List.append_assoc, ← encodeChars, scan?_encodeChar, ih]
    rfl

/-! ## Texts -/

theorem join?_cons_piece (c : Char) (r : List Piece) :
    join? (piece c :: r) = (join? r).map (c :: ·) := by
  unfold piece
  split
  · rename_i hcontrol
    have hlow : isLowSurrogate c.toNat = false := by simp [isLowSurrogate]; omega
    have hhigh : isHighSurrogate c.toNat = false := by simp [isHighSurrogate]; omega
    rw [join?.eq_def]
    simp [hlow, hhigh]
  · rfl

/-- **The pieces of a text join to the text.** -/
theorem join?_pieces (s : List Char) : join? (s.map piece) = some s := by
  induction s with
  | nil => rfl
  | cons c s ih => rw [List.map_cons, join?_cons_piece, ih, Option.map_some]

theorem text?_pieces (s : String) : text? (s.toList.map piece) = some s := by
  rw [text?, join?_pieces, Option.map_some, String.ofList_toList]

theorem toList_encode_append (s : String) (r : List Char) :
    (encode s).toList ++ r = '"' :: (encodeChars s.toList ++ '"' :: r) := by
  simp [encode]

/-- **A string says which text it writes**, and where it ends. -/
theorem encode_append_inj {s t : String} {r u : List Char}
    (h : (encode s).toList ++ r = (encode t).toList ++ u) : s = t ∧ r = u := by
  rw [toList_encode_append, toList_encode_append] at h
  have hscan := scan?_encodeChars s.toList r
  rw [(List.cons.inj h).2, scan?_encodeChars] at hscan
  obtain ⟨hpieces, rfl⟩ := Prod.mk.inj (Option.some.inj hscan)
  have htext := text?_pieces s
  rw [← hpieces, text?_pieces] at htext
  exact ⟨(Option.some.inj htext).symm, rfl⟩

end TemplateStyles.Json.Quoted
