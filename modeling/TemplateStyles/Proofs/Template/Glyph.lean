import TemplateStyles.Proofs.Block.Declarations
/-!
# Templates as characters and holes

A template is a row of characters and holes, and its text has a marker in each hole. Splitting the
text at a separator is splitting the row (`splitOn_text`). If the literal parts hold no opening of
a marker, the first marker of a text is that of the row's first hole (`first?_text`): no characters
around a hole can form a marker of their own or take a part of its marker.
-/
namespace TemplateStyles

/-- A character of a literal part, or the place of an interpolated expression. -/
inductive Glyph where
  | char (c : Char)
  | hole (index : Nat)
deriving DecidableEq

namespace Glyph

/-- The text of one glyph. -/
def written : Glyph → List Char
  | char c => [c]
  | hole index => (Marker.ofIndex index).toList

/-- The text of a row of glyphs, with a marker in each hole. -/
def text (g : List Glyph) : List Char := g.flatMap written

def hole? : Glyph → Option Nat
  | char _ => none
  | hole index => some index

/-- The expression in the first hole. -/
def firstHole? (g : List Glyph) : Option Nat := g.findSome? hole?

/-- The glyphs of literal parts with a hole between each two, counted from `index` on. -/
def ofPartsFrom : Nat → List String → List Glyph
  | _, [] => []
  | _, [part] => part.toList.map char
  | index, part :: next :: rest =>
    part.toList.map char ++ hole index :: ofPartsFrom (index + 1) (next :: rest)

def ofParts (parts : List String) : List Glyph := ofPartsFrom 0 parts

@[simp] theorem text_nil : text [] = [] := rfl

@[simp] theorem text_char_cons (c : Char) (g : List Glyph) : text (char c :: g) = c :: text g := rfl

@[simp] theorem text_hole_cons (i : Nat) (g : List Glyph) :
    text (hole i :: g) = (Marker.ofIndex i).toList ++ text g := rfl

@[simp] theorem text_append (g h : List Glyph) : text (g ++ h) = text g ++ text h :=
  List.flatMap_append

@[simp] theorem text_map_char (s : List Char) : text (s.map char) = s := by
  induction s with
  | nil => rfl
  | cons c s ih => rw [List.map_cons, text_char_cons, ih]

/-- The text of a template is that of its glyphs. -/
theorem text_ofPartsFrom {count : Nat} : ∀ (index : Nat) (parts : List String),
    index + parts.length ≤ count + 1 →
      text (ofPartsFrom index parts) = (Marker.joinFrom count index parts).toList
  | _, [], _ => rfl
  | _, [part], _ => text_map_char _
  | index, part :: next :: rest, h => by
    simp only [List.length_cons] at h
    have hlength : index + 1 + (next :: rest).length ≤ count + 1 := by
      simp only [List.length_cons]; omega
    have hrest := text_ofPartsFrom (index + 1) (next :: rest) hlength
    have hindex : index < count := by omega
    rw [ofPartsFrom, text_append, text_map_char, text_hole_cons, hrest, Marker.joinFrom,
      if_pos hindex, String.toList_append, String.toList_append, List.append_assoc]

theorem text_ofParts {count : Nat} {parts : List String} (h : parts.length ≤ count + 1) :
    text (ofParts parts) = (Marker.join parts count).toList :=
  text_ofPartsFrom 0 parts (by omega)

theorem lt_of_hole_mem {i : Nat} : ∀ {index : Nat} {parts : List String},
    hole i ∈ ofPartsFrom index parts → i + 1 < index + parts.length
  | _, [], h => by simp [ofPartsFrom] at h
  | _, [part], h => by simp [ofPartsFrom] at h
  | index, part :: next :: rest, h => by
    simp only [ofPartsFrom, List.mem_append, List.mem_cons, hole.injEq] at h
    rcases h with h | rfl | h
    · simp at h
    · simp only [List.length_cons]; omega
    · have := lt_of_hole_mem h
      simp only [List.length_cons] at this ⊢
      omega

/-! ## Holes -/

/-- The expressions of a row of glyphs, in order. -/
def holes (g : List Glyph) : List Nat := g.filterMap hole?

theorem mem_holes {i : Nat} {g : List Glyph} : i ∈ holes g ↔ hole i ∈ g := by
  simp only [holes, List.mem_filterMap]
  constructor
  · rintro ⟨a, ha, hi⟩
    cases a with
    | char c => simp [hole?] at hi
    | hole j => rwa [← Option.some.inj hi]
  · exact fun h => ⟨_, h, rfl⟩

theorem holes_map_char (s : List Char) : holes (s.map char) = [] :=
  List.filterMap_eq_nil_iff.2 fun a ha => by
    obtain ⟨c, -, rfl⟩ := List.mem_map.1 ha
    rfl

/-- Every expression has one hole. -/
theorem holes_ofPartsFrom : ∀ (index : Nat) (parts : List String),
    holes (ofPartsFrom index parts) = List.range' index (parts.length - 1)
  | _, [] => rfl
  | _, [part] => holes_map_char _
  | index, part :: next :: rest => by
    have hrest := holes_ofPartsFrom (index + 1) (next :: rest)
    have hpart := holes_map_char part.toList
    unfold holes at hrest hpart ⊢
    rw [ofPartsFrom, List.filterMap_append, hpart, List.nil_append,
      List.filterMap_cons_some (show hole? (hole index) = some index from rfl), hrest]
    simp [List.range'_succ]

theorem nodup_holes_ofParts (parts : List String) : (holes (ofParts parts)).Nodup := by
  rw [ofParts, holes_ofPartsFrom]
  exact List.nodup_range'

/-! ## Splitting -/

/-- The separators of a block do not occur in markers. -/
theorem not_mem_ofIndex {c : Char} (h : c ∉ Marker.opening) (hd : Text.Digit.isAscii c = false)
    (i : Nat) : c ∉ (Marker.ofIndex i).toList := by
  have hclosing : ∀ c ∈ Marker.closing, c ∈ Marker.opening := by
    simp [Marker.closing_eq, Marker.opening_eq]
  intro hmem
  simp only [Marker.toList_ofIndex, Marker.ofDigits, List.mem_append] at hmem
  rcases hmem with (hmem | hmem) | hmem
  · exact h hmem
  · rw [Text.Digit.isAscii_of_mem_repr hmem] at hd
    exact absurd hd (by simp)
  · exact h (hclosing c hmem)

theorem mem_text {c : Char} (hc : ∀ i, c ∉ (Marker.ofIndex i).toList) {g : List Glyph} :
    c ∈ text g ↔ char c ∈ g := by
  induction g with
  | nil => simp
  | cons a g ih =>
    cases a with
    | char b => simp [ih]
    | hole i => simp [ih, hc i]

theorem splitOn_append_of_not_mem {c : Char} : ∀ {front : List Char} (s : List Char), c ∉ front →
    (front ++ s).splitOn c = (s.splitOn c).modifyHead (front ++ ·)
  | [], s, _ => by rw [List.nil_append]; cases s.splitOn c <;> rfl
  | a :: front, s, h => by
    simp only [List.mem_cons, not_or] at h
    have ha : (a == c) = false := by simpa using Ne.symm h.1
    rw [List.cons_append, List.splitOn_cons_eq_if_modifyHead, ha,
      splitOn_append_of_not_mem s h.2]
    cases s.splitOn c <;> rfl

/-- Splitting the text is splitting the row of glyphs. -/
theorem splitOn_text {c : Char} (hc : ∀ i, c ∉ (Marker.ofIndex i).toList) (g : List Glyph) :
    (text g).splitOn c = (g.splitOn (char c)).map text := by
  have hmodify : ∀ (a : Glyph) (rows : List (List Glyph)),
      (rows.map text).modifyHead (a.written ++ ·) = (rows.modifyHead (a :: ·)).map text := by
    intro a rows
    cases rows <;> rfl
  induction g with
  | nil => rfl
  | cons a g ih =>
    cases a with
    | char b =>
      rw [text_char_cons, List.splitOn_cons_eq_if_modifyHead, List.splitOn_cons_eq_if_modifyHead,
        ih]
      by_cases hb : b = c
      · simp [hb]
      · have hb' : (char b == char c) = false := by simpa using hb
        have hb'' : (b == c) = false := by simpa using hb
        rw [hb', hb'']
        exact hmodify (char b) _
    | hole i =>
      have hhole : (hole i == char c) = false := by simp
      rw [text_hole_cons, splitOn_append_of_not_mem _ (hc i), List.splitOn_cons_eq_if_modifyHead,
        hhole, ih]
      exact hmodify (hole i) _

/-! ## Markers in the text -/

/-- No literal part holds the opening of a marker. -/
def Clean (g : List Glyph) : Prop := ¬ Marker.opening.map char <:+: g

theorem Clean.of_isInfix {g part : List Glyph} (h : Clean g) (hp : part <:+: g) : Clean part :=
  fun hin => h (hin.trans hp)

/-- A row of characters lies on one side of a hole. -/
theorem infix_around_hole {s : List Char} {g rest : List Glyph} {i : Nat}
    (h : s.map char <:+: g ++ hole i :: rest) : s.map char <:+: g ∨ s.map char <:+: rest := by
  have hmem : hole i ∉ s.map char := by simp
  obtain ⟨front, back, e⟩ := h
  rcases List.append_eq_append_iff.1 e with ⟨gap, hg, -⟩ | ⟨gap, hfront, hback⟩
  · exact .inl ⟨front, gap, hg.symm⟩
  · cases gap with
    | nil => exact .inl ⟨front, [], by simpa using hfront⟩
    | cons a gap =>
      obtain ⟨rfl, hrest⟩ := List.cons.inj hback
      rcases List.append_eq_append_iff.1 hfront with ⟨gap', -, hs⟩ | ⟨gap', -, hs⟩
      · exact absurd (by rw [hs]; simp) hmem
      · cases gap' with
        | nil => exact absurd (by rw [← List.nil_append (s.map char), ← hs]; simp) hmem
        | cons b gap' =>
          obtain ⟨-, hgap⟩ := List.cons.inj hs
          have hrest' : rest = gap ++ back := hrest
          have hgap' : gap = gap' ++ s.map char := hgap
          exact .inr ⟨gap', back, by rw [hrest', hgap']⟩

theorem clean_map_char {s : List Char} (h : ¬ Marker.opening <:+: s) : Clean (s.map char) := by
  rintro ⟨front, back, e⟩
  refine h ⟨text front, text back, ?_⟩
  have := congrArg text e
  simpa using this

theorem clean_ofPartsFrom : ∀ {index : Nat} {parts : List String},
    (∀ part ∈ parts, ¬ Marker.opening <:+: part.toList) → Clean (ofPartsFrom index parts)
  | _, [], _ => fun h => by simp [ofPartsFrom, Marker.opening_eq] at h
  | _, [part], h => clean_map_char (h part (by simp))
  | index, part :: next :: rest, h => fun hin => by
    rcases infix_around_hole hin with hin | hin
    · exact clean_map_char (h part (by simp)) hin
    · exact clean_ofPartsFrom (fun part hp => h part (List.mem_cons_of_mem _ hp)) hin

theorem clean_ofParts {parts : List String}
    (h : ∀ part ∈ parts, ¬ Marker.opening <:+: part.toList) : Clean (ofParts parts) :=
  clean_ofPartsFrom h

/-- If the text begins with `s` and `s` cannot run into a marker, the row begins with `s`. -/
theorem map_char_prefix {s tail : List Char} {g : List Glyph}
    (hclash : ∀ s', s' <:+ s → s' ≠ [] →
      ∀ i rest, (Marker.ofIndex i).toList ++ rest ≠ s' ++ tail)
    (h : text g = s ++ tail) : s.map char <+: g := by
  induction s generalizing g with
  | nil => exact List.nil_prefix
  | cons c s ih =>
    cases g with
    | nil => simp at h
    | cons a g =>
      cases a with
      | char b =>
        obtain ⟨rfl, htail⟩ := List.cons.inj h
        refine (List.prefix_cons_inj _).2 (ih (fun s' hs => ?_) htail)
        exact hclash s' (hs.trans (List.suffix_cons b s))
      | hole i => exact absurd h (hclash _ List.suffix_rfl (by simp) i (text g))

/-- A text that begins in the middle of an opening is not the text of a marker: only the last
underscore of the opening is one that a marker begins with, and digits follow it. -/
theorem ofIndex_append_ne_opening {s : List Char} (hs : s <:+ Marker.opening.tail) (hne : s ≠ [])
    {d : Char} (hd : Text.Digit.isDecimal d = true) (i : Nat) (rest tail : List Char) :
    (Marker.ofIndex i).toList ++ rest ≠ s ++ d :: tail := by
  have hund : d ≠ '_' := by rintro rfl; exact absurd hd (by decide)
  rw [Marker.toList_ofIndex, Marker.ofDigits_append]
  have hcases : s = ['_', 'E', 'X', 'P', 'R', '_'] ∨ s = ['E', 'X', 'P', 'R', '_'] ∨
      s = ['X', 'P', 'R', '_'] ∨ s = ['P', 'R', '_'] ∨ s = ['R', '_'] ∨ s = ['_'] := by
    have htail : Marker.opening.tail = ['_', 'E', 'X', 'P', 'R', '_'] := by decide
    rw [htail] at hs
    simpa [List.suffix_cons_iff, hne] using hs
  rcases hcases with rfl | rfl | rfl | rfl | rfl | rfl <;> simp [Ne.symm hund]

/-- **Markers stand only in holes**: the first marker of the text of a clean row is that of its
first hole. -/
theorem first?_text {g : List Glyph} (h : Clean g) :
    Marker.first? (text g) = (firstHole? g).map fun i => (Nat.repr i).toList := by
  induction g with
  | nil => rfl
  | cons a g ih =>
    have hrest : Clean g := h.of_isInfix (List.suffix_cons a g).isInfix
    cases a with
    | hole i =>
      rw [text_hole_cons, Marker.toList_ofIndex,
        Marker.first?_ofDigits_append (Marker.isDigits_repr i)]
      rfl
    | char c =>
      have hscan : Marker.scan? (c :: text g) = none := by
        refine Option.eq_none_iff_forall_ne_some.2 fun m hm => h ?_
        obtain ⟨hds, e⟩ := Marker.scan?_eq_some_iff.1 (show _ = some (m.1, m.2) from hm)
        obtain ⟨d, ds, hds'⟩ := List.exists_cons_of_ne_nil hds.ne_nil
        have hd : Text.Digit.isDecimal d = true := hds.isDecimal d (by simp [hds'])
        have hopening : Marker.opening = '_' :: Marker.opening.tail := by decide
        rw [Marker.ofDigits, hds', hopening] at e
        simp only [List.cons_append, List.append_assoc] at e
        obtain ⟨rfl, htail⟩ := List.cons.inj e
        have hprefix := map_char_prefix (fun s hs hne i rest =>
          ofIndex_append_ne_opening hs hne hd i rest _) htail
        rw [hopening, List.map_cons]
        exact (List.prefix_cons_inj _ |>.2 hprefix).isInfix
      rw [text_char_cons, Marker.first?_cons_of_none hscan, ih hrest]
      rfl

end Glyph

end TemplateStyles
