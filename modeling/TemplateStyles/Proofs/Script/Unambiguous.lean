import TemplateStyles.Proofs.Script.Generation
import TemplateStyles.Proofs.Text.Row
/-!
# Style objects are unambiguous

A key is a name by itself or a text in quotes, and its first character tells which
(`objectKey_append_inj`); so it is with values (`separates_literalChars`). Behind a number stands a
space or a comma, which no number goes on with. So members are taken apart from the front, whatever
characters there are in their texts. Main result `styleObject_unambiguous`: style maps with one text
are the same, up to the signs of zeros.
-/
namespace TemplateStyles.Script

/-! ## Keys -/

theorem exists_identifier_cons {name : String} (h : isIdentifier name = true) :
    ∃ c r, name.toList = c :: r ∧ c ≠ '"' := by
  rw [isIdentifier] at h
  cases hname : name.toList with
  | nil => simp [hname, isIdentifierChars] at h
  | cons c r =>
    rw [hname, isIdentifierChars, Bool.and_eq_true] at h
    refine ⟨c, r, rfl, ?_⟩
    rintro rfl
    exact absurd h.1 (by decide)

theorem identifier_append_ne_encode {name text : String} (h : isIdentifier name = true)
    (r s : List Char) : name.toList ++ r ≠ (Json.Quoted.encode text).toList ++ s := by
  obtain ⟨c, t, hname, hc⟩ := exists_identifier_cons h
  rw [hname, Json.Quoted.toList_encode_append]
  exact fun heq => hc (List.cons.inj heq).1

/-- **A key says which one it is**, and where it ends. -/
theorem objectKey_append_inj {k l : String} {r s : List Char}
    (h : (objectKey k).toList ++ ':' :: r = (objectKey l).toList ++ ':' :: s) : k = l ∧ r = s := by
  unfold objectKey at h
  split at h <;> split at h
  · rename_i hk hl
    obtain rfl := identifier_append_inj hk hl (by decide) h
    exact ⟨rfl, (List.cons.inj (List.append_cancel_left h)).2⟩
  · rename_i hk _
    exact absurd h (identifier_append_ne_encode hk _ _)
  · rename_i _ hl
    exact absurd h.symm (identifier_append_ne_encode hl _ _)
  · obtain ⟨rfl, hrest⟩ := Json.Quoted.encode_append_inj h
    exact ⟨rfl, (List.cons.inj hrest).2⟩

/-! ## Values -/

/-- No number goes on here. -/
def EndsLiteral (rest : List Char) : Prop := ∀ c ∈ rest.head?, StyleValue.isNumberChar c = false

/-- The literal of a value that has one. -/
def literalChars : StyleValue → List Char
  | .number x => x.text.toList
  | .text s => (Json.Quoted.encode s).toList

theorem takeWhile_text_append {x : Binary64} (hx : x.isFinite = true) {r : List Char}
    (hr : EndsLiteral r) :
    (x.text.toList ++ r).takeWhile StyleValue.isNumberChar = x.text.toList := by
  rw [List.takeWhile_append_of_pos (StyleValue.isNumberChar_of_mem_text hx)]
  cases r with
  | nil => simp
  | cons c r => rw [List.takeWhile_cons_of_neg (by simp [hr c rfl]), List.append_nil]

theorem number_append_ne_encode {x : Binary64} (hx : x.isFinite = true) (text : String)
    (r s : List Char) : x.text.toList ++ r ≠ (Json.Quoted.encode text).toList ++ s := by
  obtain ⟨c, t, hxt⟩ := List.exists_cons_of_ne_nil (StyleValue.isTight_text hx).1
  have hc := StyleValue.isNumberChar_of_mem_text hx c (by rw [hxt]; exact List.mem_cons_self ..)
  rw [hxt, Json.Quoted.toList_encode_append]
  intro heq
  rw [(List.cons.inj heq).1] at hc
  exact absurd hc (by decide)

/-- **A literal says which value it writes**, up to the sign of zero, and where it ends. -/
theorem separates_literalChars {v w : StyleValue} (hv : HasLiteral v) (hw : HasLiteral w) :
    Separates EndsLiteral StyleValue.Same literalChars v w := by
  intro r s hr hs h
  cases v with
  | number x =>
    have hx := hv x rfl
    cases w with
    | number y =>
      have hy := hw y rfl
      have htext : x.text = y.text := by
        rw [← String.toList_inj, ← takeWhile_text_append hx hr, ← takeWhile_text_append hy hs]
        exact congrArg (List.takeWhile StyleValue.isNumberChar) h
      rw [literalChars, literalChars, htext] at h
      exact ⟨.number ((Binary64.text_eq_iff hx hy).1 htext), List.append_cancel_left h⟩
    | text t => exact absurd h (number_append_ne_encode hx t r s)
  | text t =>
    cases w with
    | number y => exact absurd h.symm (number_append_ne_encode (hw y rfl) t s r)
    | text u =>
      obtain ⟨rfl, hrest⟩ := Json.Quoted.encode_append_inj h
      exact ⟨.text t, hrest⟩

theorem literalChars_eq_of_same {v w : StyleValue} (hv : HasLiteral v) (hw : HasLiteral w)
    (h : v.Same w) : literalChars v = literalChars w := by
  cases h with
  | number hxy => exact congrArg String.toList ((Binary64.text_eq_iff (hv _ rfl) (hw _ rfl)).2 hxy)
  | text s => rfl

/-! ## Members -/

/-- The same key with the same value. -/
def SameEntry (e f : String × StyleValue) : Prop := e.1 = f.1 ∧ e.2.Same f.2

/-- A member with the gap in front of it. -/
def memberChars (e : String × StyleValue) : List Char :=
  ' ' :: ((objectKey e.1).toList ++ ':' :: ' ' :: literalChars e.2)

theorem styleMember_eq {e : String × StyleValue} (h : HasLiteral e.2) :
    ∃ member, styleMember e = .ok member ∧ ' ' :: member.toList = memberChars e := by
  obtain ⟨key, v⟩ := e
  have hliteral : ∃ literal, styleLiteral key v = .ok literal ∧
      literal.toList = literalChars v := by
    cases v with
    | number x => exact ⟨x.text, by rw [styleLiteral, if_pos (h x rfl)], rfl⟩
    | text s => exact ⟨Json.Quoted.encode s, rfl, rfl⟩
  obtain ⟨literal, hok, hchars⟩ := hliteral
  refine ⟨objectKey key ++ ": " ++ literal, by rw [styleMember, hok]; rfl, ?_⟩
  rw [String.toList_append, String.toList_append, hchars, memberChars, List.append_assoc]
  rfl

/-- **A member says which key has which value**, and where it ends. -/
theorem separates_memberChars {e f : String × StyleValue} (he : HasLiteral e.2)
    (hf : HasLiteral f.2) : Separates EndsLiteral SameEntry memberChars e f := by
  intro r s hr hs h
  rw [memberChars, memberChars, List.cons_append, List.cons_append, List.append_assoc,
    List.append_assoc, List.cons_append, List.cons_append] at h
  obtain ⟨hkey, hrest⟩ := objectKey_append_inj (List.cons.inj h).2
  obtain ⟨hvalue, hrs⟩ := separates_literalChars he hf r s hr hs (List.cons.inj hrest).2
  exact ⟨⟨hkey, hvalue⟩, hrs⟩

theorem memberChars_eq_of_same {e f : String × StyleValue} (he : HasLiteral e.2)
    (hf : HasLiteral f.2) (h : SameEntry e f) : memberChars e = memberChars f := by
  rw [memberChars, memberChars, h.1, literalChars_eq_of_same he hf h.2]

/-! ## Objects -/

/-- The text of an object, from its entries. -/
def objectChars : List (String × StyleValue) → List Char
  | [] => ['\x7b', '\x7d']
  | entries => '\x7b' :: (rowChars memberChars entries ++ [' ', '\x7d'])

/-- The members of a map whose numbers are all finite. -/
theorem map_written {entries : List (String × StyleValue)} (h : ∀ e ∈ entries, HasLiteral e.2) :
    (written styleMember entries).map (fun member => ' ' :: member.toList) =
      entries.map memberChars := by
  induction entries with
  | nil => rfl
  | cons e entries ih =>
    obtain ⟨member, hok, hchars⟩ := styleMember_eq (h e (List.mem_cons_self ..))
    rw [written, List.filterMap_cons, hok, ← written]
    simp only [Except.toOption, List.map_cons, hchars,
      ih fun e he => h e (List.mem_cons_of_mem _ he)]

theorem styleObject_eq {m : StyleMap} (h : ∀ e ∈ m.entries, HasLiteral e.2) :
    ∃ text, styleObject m = .ok text ∧ text.toList = objectChars m.entries := by
  refine ⟨_, styleObject_eq_ok_iff.2 ⟨fun e he => exists_styleMember_iff.2 (h e he), rfl⟩, ?_⟩
  have hmembers := map_written h
  cases hentries : m.entries with
  | nil => rfl
  | cons e entries =>
    rw [hentries] at hmembers
    have hne : written styleMember (e :: entries) ≠ [] := by
      intro hnil
      simp [hnil] at hmembers
    obtain ⟨first, rest, hwritten⟩ := List.exists_cons_of_ne_nil hne
    have hrow := toList_intercalate_gap [' '] first rest
    rw [hwritten] at hmembers
    have hchars : rowChars (fun s : String => [' '] ++ s.toList) (first :: rest) =
        rowChars memberChars (e :: entries) := by
      have hcodes := congrArg (rowChars id) hmembers
      rwa [rowChars_map, rowChars_map] at hcodes
    rw [hwritten, object, String.toList_append, String.toList_append, objectChars, ← hchars, ← hrow]
    · rfl
    · simp
    · simp

theorem endsLiteral_cons {c : Char} (h : c = ',' ∨ c = ' ') (r : List Char) :
    EndsLiteral (c :: r) := by
  intro d hd
  rw [← Option.some.inj hd]
  rcases h with rfl | rfl <;> decide

/-- **An object says which members it has**, and in which order. -/
theorem objectChars_eq_iff {es fs : List (String × StyleValue)} (hes : ∀ e ∈ es, HasLiteral e.2)
    (hfs : ∀ f ∈ fs, HasLiteral f.2) :
    objectChars es = objectChars fs ↔ List.Forall₂ SameEntry es fs := by
  constructor
  · intro h
    -- an object without members has no space in it
    cases es with
    | nil =>
      cases fs with
      | nil => exact .nil
      | cons f fs => exact absurd (List.cons.inj (List.cons.inj h).2).1 (by decide)
    | cons e es =>
      cases fs with
      | nil => exact absurd (List.cons.inj (List.cons.inj h).2).1 (by decide)
      | cons f fs =>
        exact (forall₂_of_rowChars (endsLiteral_cons (.inl rfl)) (endsLiteral_cons (.inr rfl))
          (by decide) (fun e he f hf => separates_memberChars (hes e he) (hfs f hf))
          (List.cons.inj h).2).1
  · intro h
    have hcodes : es.map memberChars = fs.map memberChars := by
      induction h with
      | nil => rfl
      | cons hef _ ih =>
        rw [List.map_cons, List.map_cons, memberChars_eq_of_same (hes _ (List.mem_cons_self ..))
          (hfs _ (List.mem_cons_self ..)) hef, ih (fun e he => hes e (List.mem_cons_of_mem _ he))
          (fun f hf => hfs f (List.mem_cons_of_mem _ hf))]
    have hrow : rowChars memberChars es = rowChars memberChars fs := by
      have hcodes := congrArg (rowChars id) hcodes
      rwa [rowChars_map, rowChars_map] at hcodes
    cases h with
    | nil => rfl
    | cons hef hrest => rw [objectChars, hrow, objectChars] <;> simp

/-- **Style objects are unambiguous.** Two style maps with finite numbers can both be written,
and they have one text just if they have the same keys in the same order with the same values, the
two zeros being one number. -/
theorem styleObject_unambiguous (m n : StyleMap) (hm : ∀ e ∈ m.entries, HasLiteral e.2)
    (hn : ∀ e ∈ n.entries, HasLiteral e.2) :
    ∃ s t, styleObject m = .ok s ∧ styleObject n = .ok t ∧
      (s = t ↔ List.Forall₂ SameEntry m.entries n.entries) := by
  obtain ⟨s, hs, hchars⟩ := styleObject_eq hm
  obtain ⟨t, ht, hchars'⟩ := styleObject_eq hn
  refine ⟨s, t, hs, ht, ?_⟩
  rw [← String.toList_inj, hchars, hchars']
  exact objectChars_eq_iff hm hn

/-- A text that looks like the end of itself and another member, and a zero with a sign. -/
theorem styleObject_unambiguous_quoted :
    let m : StyleMap := .ofList [("a", .text "b\", c: \"d"), ("e", .number (.finite true .zero))]
    let n : StyleMap := .ofList [("a", .text "b"), ("c", .text "d"), ("e", .number .zero)]
    (∀ e ∈ m.entries, HasLiteral e.2) ∧ (∀ e ∈ n.entries, HasLiteral e.2) ∧
      ∃ s t, styleObject m = .ok s ∧ styleObject n = .ok t ∧ s ≠ t := by
  intro m n
  have hm : ∀ e ∈ m.entries, HasLiteral e.2 := by
    simp [m, OrderedMap.entries_ofList, HasLiteral, Binary64.isFinite]
  have hn : ∀ e ∈ n.entries, HasLiteral e.2 := by
    simp [n, OrderedMap.entries_ofList, HasLiteral, Binary64.isFinite, Binary64.zero]
  obtain ⟨s, t, hs, ht, hiff⟩ := styleObject_unambiguous m n hm hn
  refine ⟨hm, hn, s, t, hs, ht, fun heq => ?_⟩
  have hlength := (hiff.1 heq).length_eq
  exact absurd hlength (by decide)

end TemplateStyles.Script
