import TemplateStyles.Proofs.Block.LastWrite
import TemplateStyles.Proofs.Render.LateTemplate
import TemplateStyles.Render.Css
/-!
# Declarations with interpolated texts

A block of declarations, some of whose values are interpolated texts. As a template it can be
joined with markers or filled in with the texts; both give one row of declarations each
(`joinFrom_partsFrom`, `fillIn_partsFrom`), and these rows are read as writes of which the second
is the first one filled in (`filledBy_declarations`).
-/
namespace TemplateStyles

/-- A declaration of a css block; its value is written out or is one interpolated text. -/
structure CssDeclaration where
  name : String
  value : String
  interpolated : Bool
deriving DecidableEq, Repr

namespace CssDeclaration

/-- What the texts around an interpolation may be: nothing in them ends a name or a declaration or
begins a marker, the property is no shorthand of a box, and an interpolated text is not blank. -/
structure Admissible (d : CssDeclaration) : Prop where
  name_plain : ';' ∉ d.name.toList ∧ ':' ∉ d.name.toList
  not_shorthand : Property.normalize d.name ∉ BoxShorthand.inFragments
  value_plain : ';' ∉ d.value.toList
  no_opening : ¬ Marker.opening <:+: d.value.toList
  not_blank : d.interpolated = true → Text.trim d.value ≠ ""

instance (d : CssDeclaration) : Decidable d.Admissible :=
  decidable_of_iff ((';' ∉ d.name.toList ∧ ':' ∉ d.name.toList) ∧
      Property.normalize d.name ∉ BoxShorthand.inFragments ∧ ';' ∉ d.value.toList ∧
      ¬ Marker.opening <:+: d.value.toList ∧
      (d.interpolated = true → Text.trim d.value ≠ ""))
    ⟨fun ⟨name, short, value, opening, blank⟩ => ⟨name, short, value, opening, blank⟩,
      fun h => ⟨h.name_plain, h.not_shorthand, h.value_plain, h.no_opening, h.not_blank⟩⟩

/-! ## The block as a template -/

/-- What stands between a declaration and those behind it. -/
def separator {α : Type} : List α → String
  | [] => ""
  | _ :: _ => ";"

/-- The literal parts of the declarations, with semicolons between them; the first part begins
with `front`. -/
def partsFrom (front : String) : List CssDeclaration → List String
  | [] => [front]
  | d :: rest =>
    if d.interpolated then (front ++ d.name ++ ": ") :: partsFrom (separator rest) rest
    else partsFrom (front ++ d.name ++ ": " ++ d.value ++ separator rest) rest

def parts (ds : List CssDeclaration) : List String := partsFrom "" ds

/-- The interpolated texts. -/
def texts (ds : List CssDeclaration) : List String := (ds.filter (·.interpolated)).map (·.value)

/-- The declarations as a template that interpolates texts. -/
def template (ds : List CssDeclaration) : LateTemplate :=
  ⟨parts ds, (texts ds).map fun s => .value (.str s)⟩

/-- Names and values as one block. -/
def row : List (String × String) → String
  | [] => ""
  | p :: rest => p.1 ++ ": " ++ p.2 ++ separator rest ++ row rest

/-- The declarations with their values. -/
def filled (ds : List CssDeclaration) : List (String × String) := ds.map fun d => (d.name, d.value)

/-- The declarations with markers for the interpolated values, counted from `index` on. -/
def marked : Nat → List CssDeclaration → List (String × String)
  | _, [] => []
  | index, d :: rest =>
    if d.interpolated then (d.name, Marker.ofIndex index) :: marked (index + 1) rest
    else (d.name, d.value) :: marked index rest

theorem partsFrom_ne_nil (front : String) (ds : List CssDeclaration) :
    partsFrom front ds ≠ [] := by
  induction ds generalizing front with
  | nil => simp [partsFrom]
  | cons d rest ih =>
    rw [partsFrom]
    split
    · simp
    · exact ih _

theorem separator_filled (ds : List CssDeclaration) : separator (filled ds) = separator ds := by
  cases ds <;> rfl

theorem separator_marked (index : Nat) (ds : List CssDeclaration) :
    separator (marked index ds) = separator ds := by
  cases ds with
  | nil => rfl
  | cons d rest => rw [marked]; split <;> rfl

theorem texts_cons_of_interpolated {d : CssDeclaration} (h : d.interpolated = true)
    (rest : List CssDeclaration) : texts (d :: rest) = d.value :: texts rest := by
  simp [texts, h]

theorem texts_cons_of_literal {d : CssDeclaration} (h : ¬ d.interpolated = true)
    (rest : List CssDeclaration) : texts (d :: rest) = texts rest := by
  simp [texts, h]

theorem fillIn_cons {rest : List String} (h : rest ≠ []) (part : String) (v : Json)
    (vs : List Json) :
    fillIn (part :: rest) (v :: vs) = part ++ v.interpolated ++ fillIn rest vs := by
  cases rest with
  | nil => exact absurd rfl h
  | cons next rest => rfl

theorem joinFrom_cons {rest : List String} (h : rest ≠ []) {count index : Nat}
    (hindex : index < count) (part : String) : Marker.joinFrom count index (part :: rest) =
      part ++ Marker.ofIndex index ++ Marker.joinFrom count (index + 1) rest := by
  cases rest with
  | nil => exact absurd rfl h
  | cons next rest => rw [Marker.joinFrom, if_pos hindex]

/-- Filling the texts into the template gives the declarations with their values. -/
theorem fillIn_partsFrom (ds : List CssDeclaration) (front : String) :
    fillIn (partsFrom front ds) ((texts ds).map .str) = front ++ row (filled ds) := by
  induction ds generalizing front with
  | nil => exact (String.append_empty).symm
  | cons d rest ih =>
    have hrow : row (filled (d :: rest)) =
        d.name ++ ": " ++ d.value ++ separator rest ++ row (filled rest) := by
      rw [← separator_filled]; rfl
    rw [partsFrom, hrow]
    by_cases hd : d.interpolated = true
    · rw [if_pos hd, texts_cons_of_interpolated hd, List.map_cons,
        fillIn_cons (partsFrom_ne_nil _ _), ih]
      simp only [Json.interpolated, String.append_assoc]
    · rw [if_neg hd, texts_cons_of_literal hd, ih]
      simp only [String.append_assoc]

/-- Joining the template with markers gives the declarations with markers. -/
theorem joinFrom_partsFrom (ds : List CssDeclaration) (front : String) {count index : Nat}
    (h : index + (texts ds).length ≤ count) :
    Marker.joinFrom count index (partsFrom front ds) = front ++ row (marked index ds) := by
  induction ds generalizing front index with
  | nil => exact (String.append_empty).symm
  | cons d rest ih =>
    rw [partsFrom, marked]
    by_cases hd : d.interpolated = true
    · rw [texts_cons_of_interpolated hd, List.length_cons] at h
      rw [if_pos hd, if_pos hd, joinFrom_cons (partsFrom_ne_nil _ _) (by omega),
        ih _ (by omega), row, separator_marked]
      simp only [String.append_assoc]
    · rw [texts_cons_of_literal hd] at h
      rw [if_neg hd, if_neg hd, ih _ h, row, separator_marked]
      simp only [String.append_assoc]

/-! ## Reading a row -/

/-- A name and a value that can stand in a row. -/
structure PlainPair (p : String × String) : Prop where
  name : ';' ∉ p.1.toList
  name_colon : ':' ∉ p.1.toList
  not_shorthand : Property.normalize p.1 ∉ BoxShorthand.inFragments
  value : ';' ∉ p.2.toList

theorem splitOn_row {pairs : List (String × String)} (hne : pairs ≠ [])
    (h : ∀ p ∈ pairs, PlainPair p) :
    (row pairs).toList.splitOn ';' = pairs.map fun p => (p.1 ++ ": " ++ p.2).toList := by
  induction pairs with
  | nil => exact absurd rfl hne
  | cons p rest ih =>
    have hp := h p (List.mem_cons_self ..)
    have hplain : ';' ∉ (p.1 ++ ": " ++ p.2).toList := by
      simp [String.toList_append, hp.name, hp.value]
    cases rest with
    | nil =>
      have hrow : row [p] = p.1 ++ ": " ++ p.2 := by simp [row, separator]
      rw [hrow, List.splitOn_eq_singleton hplain]
      rfl
    | cons q rest =>
      have hrow : (row (p :: q :: rest)).toList =
          (p.1 ++ ": " ++ p.2).toList ++ ';' :: (row (q :: rest)).toList := by
        rw [row, separator, String.toList_append, String.toList_append (t := ";")]
        simp
      rw [hrow, List.splitOn_append_cons_self_of_not_mem hplain,
        ih (by simp) fun x hx => h x (List.mem_cons_of_mem _ hx)]
      rfl

/-- The declaration that a name and a value form. -/
def ofPair? (p : String × String) : Option Declaration :=
  Declaration.ofText? (p.1 ++ ": " ++ p.2)

theorem declarations_row {pairs : List (String × String)} (h : ∀ p ∈ pairs, PlainPair p) :
    Block.declarations (row pairs) = pairs.filterMap ofPair? := by
  cases pairs with
  | nil => decide
  | cons p rest =>
    rw [Block.declarations_eq, splitOn_row (by simp) h, List.filterMap_map]
    refine List.filterMap_congr fun q _ => ?_
    rw [Function.comp_apply, String.ofList_toList, ofPair?]

theorem ofPair?_eq {name value : String} (h : ':' ∉ name.toList) :
    ofPair? (name, value) =
      if Text.trim name = "" ∨ Text.trim value = "" then none
      else some ⟨Text.trim name, Text.trim value⟩ := by
  have htext : name ++ ": " ++ value =
      String.ofList (name.toList ++ ':' :: ' ' :: value.toList) := by
    rw [← String.toList_inj]
    simp
  have hblank : Text.trimChars (' ' :: value.toList) = Text.trimChars value.toList := by
    rw [← Text.trimChars_trimStart (' ' :: value.toList), ← Text.trimChars_trimStart value.toList]
    rfl
  rw [ofPair?, htext, Declaration.ofText?_colon h, hblank]
  simp only [Text.trim, String.ofList_eq_empty_iff]

theorem normalize_trim (name : String) :
    Property.normalize (Text.trim name) = Property.normalize name := by
  rw [Property.normalize, Text.trim_trim, Property.normalize]

theorem canonical_not_shorthand {pairs : List (String × String)} (h : ∀ p ∈ pairs, PlainPair p)
    {d : Declaration} (hd : d ∈ pairs.filterMap ofPair?) :
    d.canonical ∉ BoxShorthand.inFragments := by
  obtain ⟨⟨name, value⟩, hp, hpair⟩ := List.mem_filterMap.1 hd
  rw [ofPair?_eq (h _ hp).name_colon] at hpair
  split at hpair
  · simp at hpair
  · rw [← Option.some.inj hpair, Declaration.canonical, normalize_trim]
    exact (h _ hp).not_shorthand

/-! ## Both rows -/

/-- The fixed value that stands for an evaluated one, on no props. -/
def fill (texts : List String) (v : StyleValue) : Option Json :=
  (v.source? (texts.map fun s => .value (.str s))).map fun i => (i.evaluate .empty).typed

/-- A name and a value, and the same name with the value filled in. -/
structure Alike (texts : List String) (p q : String × String) : Prop where
  plain_left : PlainPair p
  plain_right : PlainPair q
  name_eq : p.1 = q.1
  no_opening : ¬ Marker.opening <:+: q.2.toList
  value_cases : p.2 = q.2 ∨
    ∃ i, p.2 = Marker.ofIndex i ∧ texts[i]? = some q.2 ∧ Text.trim q.2 ≠ ""

/-- The rows of a block are alike, pair by pair. -/
theorem alike_marked {all : List String} : ∀ {index : Nat} {ds : List CssDeclaration},
    (∀ d ∈ ds, d.Admissible) → all.drop index = texts ds →
      List.Forall₂ (Alike all) (marked index ds) (filled ds)
  | _, [], _, _ => .nil
  | index, d :: rest, h, htexts => by
    have hd := h d (List.mem_cons_self ..)
    have hrest : ∀ d ∈ rest, d.Admissible := fun x hx => h x (List.mem_cons_of_mem _ hx)
    have hplain : ∀ {value : String}, ';' ∉ value.toList → PlainPair (d.name, value) :=
      fun hvalue => ⟨hd.name_plain.1, hd.name_plain.2, hd.not_shorthand, hvalue⟩
    rw [marked]
    by_cases hi : d.interpolated = true
    · rw [texts_cons_of_interpolated hi] at htexts
      have hget : all[index]? = some d.value := by
        rw [← List.head?_drop, htexts, List.head?_cons]
      have hdrop : all.drop (index + 1) = texts rest := by
        rw [← List.tail_drop, htexts, List.tail_cons]
      rw [if_pos hi]
      refine .cons ?_ (alike_marked hrest hdrop)
      exact ⟨hplain (TemplateDeclaration.semicolon_not_mem_ofIndex index), hplain hd.value_plain,
        rfl, hd.no_opening, .inr ⟨index, rfl, hget, hd.not_blank hi⟩⟩
    · rw [texts_cons_of_literal hi] at htexts
      rw [if_neg hi]
      refine .cons ?_ (alike_marked hrest htexts)
      exact ⟨hplain hd.value_plain, hplain hd.value_plain, rfl, hd.no_opening, .inl rfl⟩

theorem occursIn_trim_ofIndex (i : Nat) :
    Marker.occursIn (Text.trim (Marker.ofIndex i)) = true := by
  have hfirst := Marker.first?_ofDigits_append (Marker.isDigits_repr i) []
  rw [Marker.occursIn, Marker.first?_trim, Marker.toList_ofIndex, ← List.append_nil
    (Marker.ofDigits _), hfirst]
  rfl

theorem trim_ofIndex_ne_empty (i : Nat) : Text.trim (Marker.ofIndex i) ≠ "" := by
  intro e
  have hoccurs := occursIn_trim_ofIndex i
  rw [e] at hoccurs
  exact absurd hoccurs (by decide)

theorem fill_ofIndex {texts : List String} (hcount : texts.length ≤ UInt64.size) {i : Nat}
    {s : String} (h : texts[i]? = some s) :
    fill texts (.ofText (Text.trim (Marker.ofIndex i))) = some (StyleValue.ofText s).toJson := by
  obtain ⟨hi, rfl⟩ := List.getElem?_eq_some_iff.1 h
  have hfirst : Marker.first? (Text.trim (Marker.ofIndex i)).toList =
      some (Nat.repr i).toList := by
    rw [Marker.first?_trim, Marker.toList_ofIndex, ← List.append_nil (Marker.ofDigits _),
      Marker.first?_ofDigits_append (Marker.isDigits_repr i)]
  have hindex : Marker.index? (Text.trim (Marker.ofIndex i)) = some i :=
    Marker.index?_of_first? hfirst (by omega)
  rw [fill, StyleValue.source?, StyleValue.expression?_ofText (occursIn_trim_ofIndex i), hindex,
    List.length_map]
  simp [Option.filter, hi, Interpolation.evaluate, Json.typed]

theorem write_of_literal {name value : String}
    (hname : Property.normalize name ∉ BoxShorthand.inFragments)
    (hvalue : ¬ Marker.opening <:+: value.toList) :
    (Declaration.mk (Text.trim name) (Text.trim value)).write =
      .static (Property.normalize name) (.ofText value) := by
  have hliteral : Marker.occursIn (Text.trim value) = false := by
    rw [Marker.occursIn, Marker.first?_trim, Marker.first?_eq_none_of_no_opening hvalue]
    rfl
  have hwrite := Declaration.write_of_literal (d := ⟨Text.trim name, Text.trim value⟩)
    (by rw [Declaration.canonical, normalize_trim]; exact hname) hliteral
  rw [hwrite, Declaration.canonical, normalize_trim, StyleValue.ofText_trim]

theorem write_of_marker (name : String) (i : Nat) :
    (Declaration.mk (Text.trim name) (Text.trim (Marker.ofIndex i))).write =
      .dynamic (Property.normalize name) (.ofText (Text.trim (Marker.ofIndex i))) := by
  have hwrite := Declaration.write_of_occursIn
    (d := ⟨Text.trim name, Text.trim (Marker.ofIndex i)⟩) (occursIn_trim_ofIndex i)
  rw [hwrite, Declaration.canonical, normalize_trim]

/-- Both pairs of a row are declarations or neither is; the second write is the first filled in. -/
theorem filledBy_of_alike {texts : List String} (hcount : texts.length ≤ UInt64.size)
    {p q : String × String} (h : Alike texts p q) :
    Option.Rel (fun d d' => Write.FilledBy (fill texts) d.write d'.write) (ofPair? p)
      (ofPair? q) := by
  obtain ⟨name, value⟩ := q
  obtain ⟨name', marked⟩ := p
  obtain rfl : name' = name := h.name_eq
  have hwrite := write_of_literal h.plain_right.not_shorthand h.no_opening
  rw [ofPair?_eq h.plain_left.name_colon, ofPair?_eq h.plain_right.name_colon]
  rcases h.value_cases with hvalue | ⟨i, hmarked, htext, hblank⟩
  · obtain rfl : marked = value := hvalue
    split
    · exact .none
    · refine .some ?_
      rw [hwrite]
      exact .fixed _ _
  · obtain rfl : marked = Marker.ofIndex i := hmarked
    have hmarker : Text.trim (Marker.ofIndex i) ≠ "" := trim_ofIndex_ne_empty i
    by_cases hname : Text.trim name' = ""
    · rw [if_pos (.inl hname), if_pos (.inl hname)]
      exact .none
    · rw [if_neg (by simp [hname, hmarker]), if_neg (by simpa [hname] using hblank)]
      refine .some ?_
      rw [hwrite, write_of_marker]
      exact .evaluated _ (fill_ofIndex hcount htext)

theorem plain_of_alike {texts : List String} {ps qs : List (String × String)}
    (h : List.Forall₂ (Alike texts) ps qs) : (∀ p ∈ ps, PlainPair p) ∧ ∀ q ∈ qs, PlainPair q := by
  induction h with
  | nil => simp
  | cons hpq _ ih =>
    exact ⟨List.forall_mem_cons.2 ⟨hpq.plain_left, ih.1⟩,
      List.forall_mem_cons.2 ⟨hpq.plain_right, ih.2⟩⟩

variable {ds : List CssDeclaration}

theorem forall₂_alike (h : ∀ d ∈ ds, d.Admissible) :
    List.Forall₂ (Alike (texts ds)) (marked 0 ds) (filled ds) := alike_marked h List.drop_zero

theorem canonical_of_mem_marked (h : ∀ d ∈ ds, d.Admissible) {d : Declaration}
    (hd : d ∈ Block.declarations (row (marked 0 ds))) :
    d.canonical ∉ BoxShorthand.inFragments := by
  have hplain := (plain_of_alike (forall₂_alike h)).1
  rw [declarations_row hplain] at hd
  exact canonical_not_shorthand hplain hd

/-- **The filled-in block is the block with markers, filled in.** -/
theorem filledBy_declarations (h : ∀ d ∈ ds, d.Admissible)
    (hcount : (texts ds).length ≤ UInt64.size) :
    List.Forall₂ (Write.FilledBy (fill (texts ds)))
      ((Block.declarations (row (marked 0 ds))).map Declaration.write)
      ((Block.declarations (row (filled ds))).map Declaration.write) := by
  have halike := forall₂_alike h
  obtain ⟨hmarked, hfilled⟩ := plain_of_alike halike
  rw [declarations_row hmarked, declarations_row hfilled, List.forall₂_map_left_iff,
    List.forall₂_map_right_iff]
  exact List.rel_filterMap (fun _ _ hpq => filledBy_of_alike hcount hpq) halike

end CssDeclaration

end TemplateStyles
