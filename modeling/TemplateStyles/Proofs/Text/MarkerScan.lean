import Mathlib.Data.List.Infix
import TemplateStyles.Marker
import TemplateStyles.Proofs.Text.Trimming
/-!
# Finding markers in text

A marker at the front of a text is an opening, digits and a closing (`scan?_eq_some_iff`). The
markers of a text stay the same when the text is trimmed (`occurrences_trimChars`) and when a unit
behind its last marker is dropped (`occurrences_dropUnit`); both take away only characters that
no marker ends with. A part of a text without markers has none (`first?_eq_none_of_infix`).
-/
namespace TemplateStyles

namespace Text.Digit

theorem isAscii_of_mem_repr {n : Nat} {c : Char} (h : c ∈ (Nat.repr n).toList) :
    isAscii c = true := by
  rw [Nat.toList_repr] at h
  have hd := Nat.isDigit_of_mem_toDigits (by decide) (by decide) h
  simp only [Char.isDigit, Bool.and_eq_true, decide_eq_true_eq] at hd
  simp only [isAscii, Bool.and_eq_true, decide_eq_true_eq]
  exact ⟨hd.1, hd.2⟩

theorem valueFrom_repr (n : Nat) : valueFrom 0 (Nat.repr n).toList = n := by
  have h := Nat.ofDigitChars_ten_toDigits (n := n)
  rw [Nat.ofDigitChars_eq_foldl] at h
  rw [Nat.toList_repr]
  exact h

theorem repr_injective {m n : Nat} (h : Nat.repr m = Nat.repr n) : m = n := by
  rw [← valueFrom_repr m, h, valueFrom_repr]

/-- A number that is written in digits is read back. -/
theorem readNat?_repr (n : Nat) : readNat? (Nat.repr n).toList = some n := by
  have hne : (Nat.repr n).toList ≠ [] := by rw [Nat.toList_repr]; exact Nat.toDigits_ne_nil
  have hall : (Nat.repr n).toList.all isAscii = true :=
    List.all_eq_true.2 fun c hc => isAscii_of_mem_repr hc
  rw [readNat?, if_pos ⟨hne, hall⟩, valueFrom_repr]

end Text.Digit

namespace Marker

open Text.Digit

/-! ## One marker -/

theorem opening_eq : opening = ['_', '_', 'E', 'X', 'P', 'R', '_'] := by decide

theorem closing_eq : closing = ['_', '_'] := by decide

/-- What stands between the opening and the closing of a marker. -/
structure IsDigits (ds : List Char) : Prop where
  ne_nil : ds ≠ []
  isDecimal : ∀ c ∈ ds, Text.Digit.isDecimal c = true

theorem isDigits_repr (n : Nat) : IsDigits (Nat.repr n).toList where
  ne_nil := by rw [Nat.toList_repr]; exact Nat.toDigits_ne_nil
  isDecimal := fun _ hc => isDecimal_of_isAscii (isAscii_of_mem_repr hc)

/-- The marker with these digits. -/
def ofDigits (ds : List Char) : List Char := opening ++ ds ++ closing

theorem ofDigits_append (ds rest : List Char) : ofDigits ds ++ rest =
    '_' :: '_' :: 'E' :: 'X' :: 'P' :: 'R' :: '_' :: (ds ++ '_' :: '_' :: rest) := by
  simp [ofDigits, opening_eq, closing_eq]

theorem toList_ofIndex (n : Nat) : (ofIndex n).toList = ofDigits (Nat.repr n).toList := by
  rw [ofIndex, String.toList_ofList, ofDigits]

theorem scan?_opening (r : List Char) :
    scan? ('_' :: '_' :: 'E' :: 'X' :: 'P' :: 'R' :: '_' :: r) =
      match r.takeWhile isDecimal, r.dropWhile isDecimal with
      | [], _ => none
      | d :: ds, '_' :: '_' :: rest => some (d :: ds, rest)
      | _, _ => none := rfl

theorem scan?_ofDigits_append {ds : List Char} (h : IsDigits ds) (rest : List Char) :
    scan? (ofDigits ds ++ rest) = some (ds, rest) := by
  have htake : (ds ++ '_' :: '_' :: rest).takeWhile isDecimal = ds := by
    rw [List.takeWhile_append_of_pos h.isDecimal, List.takeWhile_cons_of_neg (by decide),
      List.append_nil]
  have hdrop : (ds ++ '_' :: '_' :: rest).dropWhile isDecimal = '_' :: '_' :: rest := by
    rw [List.dropWhile_append_of_pos h.isDecimal, List.dropWhile_cons_of_neg (by decide)]
  rw [ofDigits_append, scan?_opening, htake, hdrop]
  cases ds with
  | nil => exact absurd rfl h.ne_nil
  | cons d ds => rfl

theorem scan?_eq_some_iff {s ds rest : List Char} :
    scan? s = some (ds, rest) ↔ IsDigits ds ∧ s = ofDigits ds ++ rest := by
  constructor
  · intro h
    unfold scan? at h
    split at h
    · rename_i r
      split at h
      · simp at h
      · rename_i d ds' rest' htake hdrop
        simp only [Option.some.injEq, Prod.mk.injEq] at h
        obtain ⟨rfl, rfl⟩ := h
        have hall : ∀ c ∈ d :: ds', isDecimal c = true :=
          fun c hc => List.all_eq_true.1 (List.all_takeWhile ..) c (htake ▸ hc)
        refine ⟨⟨by simp, hall⟩, ?_⟩
        rw [ofDigits_append, ← htake, ← hdrop, List.takeWhile_append_dropWhile]
      · simp at h
    · simp at h
  · rintro ⟨h, rfl⟩
    exact scan?_ofDigits_append h rest

theorem scan?_cons_of_ne {c : Char} (h : c ≠ '_') (r : List Char) : scan? (c :: r) = none := by
  unfold scan?
  split
  · rename_i e; exact absurd (List.cons.inj e).1 h
  · rfl

/-! ## The first marker -/

theorem first?_cons_of_none {c : Char} {r : List Char} (h : scan? (c :: r) = none) :
    first? (c :: r) = first? r := by
  rw [first?, h]

theorem first?_of_scan? {s ds rest : List Char} (h : scan? s = some (ds, rest)) :
    first? s = some ds := by
  cases s with
  | nil => simp [scan?] at h
  | cons c r => rw [first?, h]

theorem first?_ofDigits_append {ds : List Char} (h : IsDigits ds) (rest : List Char) :
    first? (ofDigits ds ++ rest) = some ds := first?_of_scan? (scan?_ofDigits_append h rest)

/-- A text has a first marker just if there is a marker somewhere in it. -/
theorem first?_isSome_iff {s : List Char} :
    (first? s).isSome ↔ ∃ ds, IsDigits ds ∧ ofDigits ds <:+: s := by
  induction s with
  | nil =>
    simp only [first?, Option.isSome_none, Bool.false_eq_true, false_iff, not_exists, not_and]
    intro ds _ h
    simp [ofDigits, opening_eq, List.infix_nil] at h
  | cons c r ih =>
    cases hs : scan? (c :: r) with
    | none =>
      rw [first?_cons_of_none hs, ih]
      refine exists_congr fun ds => and_congr_right fun hds => ?_
      rw [List.infix_cons_iff]
      refine ⟨.inr, fun h => h.resolve_left ?_⟩
      rintro ⟨rest, e⟩
      rw [← e, scan?_ofDigits_append hds] at hs
      simp at hs
    | some m =>
      obtain ⟨ds, rest⟩ := m
      obtain ⟨hds, e⟩ := scan?_eq_some_iff.1 hs
      rw [first?_of_scan? hs]
      simp only [Option.isSome_some, true_iff]
      exact ⟨ds, hds, [], rest, by rw [List.nil_append, e]⟩

theorem first?_eq_none_of_infix {a s : List Char} (h : a <:+: s) (hs : first? s = none) :
    first? a = none := by
  rw [← Option.not_isSome_iff_eq_none, first?_isSome_iff] at hs ⊢
  rintro ⟨ds, hds, hin⟩
  exact hs ⟨ds, hds, hin.trans h⟩

/-- Without the opening of a marker there is no marker. -/
theorem first?_eq_none_of_no_opening {s : List Char} (h : ¬ opening <:+: s) : first? s = none := by
  rw [← Option.not_isSome_iff_eq_none, first?_isSome_iff]
  rintro ⟨ds, -, hin⟩
  exact h (.trans ⟨[], ds ++ closing, by simp [ofDigits]⟩ hin)

/-! ## Text behind the markers -/

/-- A marker ends with an underscore, so it does not reach into a text that has none. -/
theorem scan?_append (s : List Char) {b : List Char} (hb : '_' ∉ b) (ds rest : List Char) :
    scan? (s ++ b) = some (ds, rest) ↔ ∃ rest', rest = rest' ++ b ∧ scan? s = some (ds, rest') := by
  simp only [scan?_eq_some_iff]
  constructor
  · rintro ⟨hds, e⟩
    rcases List.append_eq_append_iff.1 e with ⟨as, h1, h2⟩ | ⟨rest', h1, h2⟩
    · -- the part of the marker that would lie in `b` ends with the underscore of the closing
      rcases List.eq_nil_or_concat as with rfl | ⟨as', x, rfl⟩
      · refine ⟨[], by simpa using h2.symm, hds, ?_⟩
        simpa using h1.symm
      · have h3 : opening ++ ds ++ ['_'] ++ ['_'] = (s ++ as') ++ [x] := by
          simpa [ofDigits, closing_eq] using h1
        have hx : x = '_' := (List.singleton_inj.1 (List.append_inj' h3 rfl).2).symm
        exact absurd (by rw [h2, hx]; simp) hb
    · exact ⟨rest', h2, hds, h1⟩
  · rintro ⟨rest', rfl, hds, rfl⟩
    exact ⟨hds, List.append_assoc ..⟩

theorem first?_of_not_mem {b : List Char} (hb : '_' ∉ b) : first? b = none := by
  refine first?_eq_none_of_no_opening fun h => hb ?_
  exact h.subset (by decide)

/-- The digits of the markers in a text, in order. -/
def occurrences : List Char → List (List Char)
  | [] => []
  | c :: r => ((scan? (c :: r)).map Prod.fst).toList ++ occurrences r

theorem head?_occurrences (s : List Char) : (occurrences s).head? = first? s := by
  induction s with
  | nil => rfl
  | cons c s ih =>
    rw [occurrences, first?]
    cases scan? (c :: s) with
    | none => exact ih
    | some m => rfl

theorem occurrences_append_of_not_mem {b : List Char} (hb : '_' ∉ b) (s : List Char) :
    occurrences (b ++ s) = occurrences s := by
  induction b with
  | nil => rfl
  | cons c b ih =>
    simp only [List.mem_cons, not_or] at hb
    rw [List.cons_append, occurrences, scan?_cons_of_ne (Ne.symm hb.1), ih hb.2]
    rfl

theorem occurrences_append (s : List Char) {b : List Char} (hb : '_' ∉ b) :
    occurrences (s ++ b) = occurrences s := by
  induction s with
  | nil => simpa using occurrences_append_of_not_mem hb []
  | cons c s ih =>
    have hscan : (scan? (c :: (s ++ b))).map Prod.fst = (scan? (c :: s)).map Prod.fst := by
      ext ds
      have hiff := fun rest => scan?_append (c :: s) hb ds rest
      simp only [List.cons_append] at hiff
      simp [hiff]
    rw [List.cons_append, occurrences, occurrences, ih, hscan]

theorem first?_append_of_not_mem {b : List Char} (hb : '_' ∉ b) (s : List Char) :
    first? (b ++ s) = first? s := by
  rw [← head?_occurrences, occurrences_append_of_not_mem hb, head?_occurrences]

theorem underscore_not_mem_of_blank {b : List Char} (hb : ∀ c ∈ b, Text.isBlank c = true) :
    '_' ∉ b := fun h => absurd (hb _ h) (by decide)

/-- **Trimming keeps the markers**: blanks at the ends of a text belong to no marker. -/
theorem occurrences_trimChars (s : List Char) :
    occurrences (Text.trimChars s) = occurrences s := by
  obtain ⟨front, back, hf, hb, e⟩ := Text.exists_eq_trimChars s
  conv_rhs => rw [e, List.append_assoc,
    occurrences_append_of_not_mem (underscore_not_mem_of_blank hf),
    occurrences_append _ (underscore_not_mem_of_blank hb)]

theorem first?_trimChars (s : List Char) : first? (Text.trimChars s) = first? s := by
  rw [← head?_occurrences, occurrences_trimChars, head?_occurrences]

theorem first?_trim (s : String) : first? (Text.trim s).toList = first? s.toList := by
  rw [Text.trim, String.toList_ofList, first?_trimChars]

theorem underscore_not_mem_of_isUnit {u : List Char} (h : isUnit u = true) : '_' ∉ u := by
  intro hmem
  have hu : u.map Char.toLower ∈ units := of_decide_eq_true h
  have hall : ∀ w ∈ units, '_' ∉ w := by decide
  exact hall _ hu (List.mem_map.2 ⟨'_', hmem, by decide⟩)

/-- **When `dropUnit` drops a unit**: just if the text ends in a marker and a unit. -/
theorem dropUnit_cases (s : List Char) :
    (∃ front ds unit, IsDigits ds ∧ isUnit unit = true ∧ s = front ++ (ofDigits ds ++ unit) ∧
        dropUnit s = front ++ ofDigits ds) ∨
      dropUnit s = s ∧ ∀ front ds unit, IsDigits ds → isUnit unit = true →
        s ≠ front ++ (ofDigits ds ++ unit) := by
  induction s with
  | nil => exact .inr ⟨rfl, fun front ds unit _ _ h => by simp [ofDigits_append] at h⟩
  | cons c s ih =>
    by_cases hhere : ∃ ds unit, isUnit unit = true ∧ scan? (c :: s) = some (ds, unit)
    · obtain ⟨ds, unit, hunit, hscan⟩ := hhere
      obtain ⟨hds, heq⟩ := scan?_eq_some_iff.1 hscan
      refine .inl ⟨[], ds, unit, hds, hunit, heq, ?_⟩
      rw [dropUnit, hscan]
      exact if_pos hunit
    · have hkeep : dropUnit (c :: s) = c :: dropUnit s := by
        rw [dropUnit]
        split
        · rename_i ds rest hscan
          exact if_neg fun hunit => hhere ⟨ds, rest, hunit, hscan⟩
        · rfl
      rcases ih with ⟨front, ds, unit, hds, hunit, heq, hdrop⟩ | ⟨hdrop, hnone⟩
      · exact .inl ⟨c :: front, ds, unit, hds, hunit, by rw [heq]; rfl, by rw [hkeep, hdrop]; rfl⟩
      · refine .inr ⟨by rw [hkeep, hdrop], fun front ds unit hds hunit heq => ?_⟩
        cases front with
        | nil => exact hhere ⟨ds, unit, hunit, scan?_eq_some_iff.2 ⟨hds, heq⟩⟩
        | cons d front => exact hnone front ds unit hds hunit (List.cons.inj heq).2

/-- What `dropUnit` drops at the end of a text. -/
theorem exists_eq_dropUnit (s : List Char) : ∃ u, '_' ∉ u ∧ s = dropUnit s ++ u := by
  rcases dropUnit_cases s with ⟨front, ds, unit, -, hunit, heq, hdrop⟩ | ⟨hdrop, -⟩
  · exact ⟨unit, underscore_not_mem_of_isUnit hunit, by rw [hdrop, List.append_assoc, ← heq]⟩
  · exact ⟨[], by simp, by rw [hdrop, List.append_nil]⟩

/-- **Dropping a unit keeps the markers.** -/
theorem occurrences_dropUnit (s : List Char) : occurrences (dropUnit s) = occurrences s := by
  obtain ⟨u, hu, e⟩ := exists_eq_dropUnit s
  conv_rhs => rw [e, occurrences_append _ hu]

theorem first?_dropUnit (s : List Char) : first? (dropUnit s) = first? s := by
  rw [← head?_occurrences, occurrences_dropUnit, head?_occurrences]

/-! ## The index of a marker -/

theorem index?_eq_of_first? {s t : String} (h : first? s.toList = first? t.toList) :
    index? s = index? t := by rw [index?, index?, h]

theorem index?_of_first? {s : String} {n : Nat} (h : first? s.toList = some (Nat.repr n).toList)
    (hn : n < UInt64.size) : index? s = some n := by
  rw [index?, h, Option.bind_some, readNat?_repr, Option.bind_some, if_pos hn]

end Marker

end TemplateStyles
