import TemplateStyles.Proofs.Block.ValuePrinting
import TemplateStyles.Proofs.Json.Quoted
import TemplateStyles.Proofs.Script.Replacement
import TemplateStyles.Sheet.Emission
/-!
# Members of written objects

A style object can be written just if each of its properties can, and then it has one member for
each property (`styleObject_eq_ok_iff`). The members can be counted in the text: each has one colon
outside quotes, behind its key (`hasColons_styleMember`). Main result `sheetSize_declaration`: the
declaration of a sheet shows how many properties the sheet has.
-/
namespace TemplateStyles.Script

/-! ## Rows -/

theorem bind_eq_ok_iff {α β ε : Type} {x : Except ε α} {f : α → Except ε β} {b : β} :
    x.bind f = .ok b ↔ ∃ a, x = .ok a ∧ f a = .ok b := by
  cases x <;> simp [Except.bind]

/-- The parts of a row, as far as they can be written. -/
def written {α ε : Type} (f : α → Except ε String) (xs : List α) : List String :=
  xs.filterMap fun x => (f x).toOption

theorem mem_written_iff {α ε : Type} {f : α → Except ε String} {xs : List α} {text : String} :
    text ∈ written f xs ↔ ∃ x ∈ xs, f x = .ok text := by
  rw [written, List.mem_filterMap]
  refine exists_congr fun x => and_congr_right fun _ => ?_
  cases f x <;> simp [Except.toOption]

/-- **A row can be written** just if each of its parts can. -/
theorem mapM_eq_ok_iff {α ε : Type} {f : α → Except ε String} {xs : List α} {texts : List String} :
    xs.mapM f = .ok texts ↔ (∀ x ∈ xs, ∃ text, f x = .ok text) ∧ texts = written f xs := by
  induction xs generalizing texts with
  | nil =>
    rw [List.mapM_nil]
    exact ⟨fun h => ⟨by simp, (Except.ok.inj h).symm⟩, fun h => h.2 ▸ rfl⟩
  | cons x xs ih =>
    rw [List.mapM_cons, List.forall_mem_cons, written, List.filterMap_cons, ← written]
    simp only [bind, bind_eq_ok_iff, ih]
    constructor
    · rintro ⟨text, htext, _, ⟨hall, rfl⟩, heq⟩
      rw [htext]
      exact ⟨⟨⟨text, rfl⟩, hall⟩, (Except.ok.inj heq).symm⟩
    · rintro ⟨⟨⟨text, htext⟩, hall⟩, heq⟩
      rw [htext] at heq
      exact ⟨text, htext, _, ⟨hall, rfl⟩, congrArg Except.ok heq.symm⟩

theorem length_written {α ε : Type} {f : α → Except ε String} {xs : List α}
    (h : ∀ x ∈ xs, ∃ text, f x = .ok text) : (written f xs).length = xs.length := by
  rw [written, List.length_filterMap_eq_countP, List.countP_eq_length]
  intro x hx
  obtain ⟨text, htext⟩ := h x hx
  rw [htext]
  rfl

/-! ## Counting members -/

/-- The colons of a text outside quotes. Inside quotes, a backslash takes the next character with
it. -/
def outerColons : Bool → List Char → Nat
  | _, [] => 0
  | false, '"' :: r => outerColons true r
  | false, ':' :: r => outerColons false r + 1
  | false, _ :: r => outerColons false r
  | true, '"' :: r => outerColons false r
  | true, '\\' :: _ :: r => outerColons true r
  | true, _ :: r => outerColons true r

/-- The text closes its quotes and has `n` colons outside them, whatever comes behind it. -/
def HasColons (n : Nat) (s : List Char) : Prop :=
  ∀ r, outerColons false (s ++ r) = n + outerColons false r

theorem HasColons.append {m n : Nat} {s t : List Char} (hs : HasColons m s) (ht : HasColons n t) :
    HasColons (m + n) (s ++ t) := by
  intro r
  rw [List.append_assoc, hs, ht, Nat.add_assoc]

theorem HasColons.outerColons_eq {n : Nat} {s : List Char} (h : HasColons n s) :
    outerColons false s = n := by
  simpa [outerColons] using h []

/-- Neither a quote nor a colon. -/
def isPlain (c : Char) : Bool := c != '"' && c != ':'

theorem hasColons_of_plain {s : List Char} (h : s.all isPlain = true) : HasColons 0 s := by
  induction s with
  | nil => exact fun r => (Nat.zero_add _).symm
  | cons c s ih =>
    intro r
    simp only [List.all_cons, isPlain, bne_iff_ne, Bool.and_eq_true] at h
    rw [List.cons_append, outerColons]
    · exact ih h.2 r
    · exact h.1.1
    · exact h.1.2

theorem outerColons_quoted_cons {c : Char} (hquote : c ≠ '"') (hslash : c ≠ '\\') (r : List Char) :
    outerColons true (c :: r) = outerColons true r := by
  rw [outerColons]
  · exact hquote
  · exact fun _ _ h => absurd h hslash

/-- An encoded character stays between the quotes. -/
theorem outerColons_encodeChar (c : Char) (r : List Char) :
    outerColons true (Json.Quoted.encodeChar c ++ r) = outerColons true r := by
  have hhex : ∀ n < 16, Json.Quoted.hexDigit n ≠ '"' ∧ Json.Quoted.hexDigit n ≠ '\\' := by decide
  unfold Json.Quoted.encodeChar
  split_ifs with hquote hslash _ _ _ _ _ hcontrol
  -- characters that are written by a letter
  all_goals try rfl
  · obtain ⟨hhigh, hhigh'⟩ := hhex (c.toNat / 16) (by omega)
    obtain ⟨hlow, hlow'⟩ := hhex (c.toNat % 16) (by omega)
    simp only [List.cons_append, List.nil_append, outerColons]
    rw [outerColons_quoted_cons (by decide) (by decide),
      outerColons_quoted_cons (by decide) (by decide), outerColons_quoted_cons hhigh hhigh',
      outerColons_quoted_cons hlow hlow']
  · exact outerColons_quoted_cons hquote hslash r

theorem hasColons_encode (s : String) : HasColons 0 (Json.Quoted.encode s).toList := by
  have hinside : ∀ (s r : List Char), outerColons true (Json.Quoted.encodeChars s ++ r) =
      outerColons true r := by
    intro s r
    induction s with
    | nil => rfl
    | cons c s ih =>
      rw [Json.Quoted.encodeChars, List.flatMap_cons, List.append_assoc, ← Json.Quoted.encodeChars,
        outerColons_encodeChar, ih]
  intro r
  rw [Json.Quoted.toList_encode_append, outerColons, hinside, outerColons, Nat.zero_add]

theorem hasColons_identifier {id : String} (h : isIdentifier id = true) :
    HasColons 0 id.toList := by
  refine hasColons_of_plain (List.all_eq_true.2 fun c hc => ?_)
  have hpart := isIdentifierPart_of_mem h hc
  rw [isPlain, Bool.and_eq_true, bne_iff_ne, bne_iff_ne]
  constructor <;> rintro rfl <;> exact absurd hpart (by decide)

theorem hasColons_objectKey (name : String) : HasColons 0 (objectKey name).toList := by
  unfold objectKey
  split
  · rename_i h
    exact hasColons_identifier h
  · exact hasColons_encode name

theorem hasColons_styleLiteral {property : String} {v : StyleValue} {literal : String}
    (h : styleLiteral property v = .ok literal) : HasColons 0 literal.toList := by
  cases v with
  | text s =>
    rw [← Except.ok.inj h]
    exact hasColons_encode s
  | number x =>
    unfold styleLiteral at h
    dsimp only at h
    split at h
    · rename_i hfinite
      rw [← Except.ok.inj h]
      refine hasColons_of_plain (List.all_eq_true.2 fun c hc => ?_)
      have hnumber := StyleValue.isNumberChar_of_mem_text hfinite c hc
      rw [isPlain, Bool.and_eq_true, bne_iff_ne, bne_iff_ne]
      constructor <;> rintro rfl <;> exact absurd hnumber (by decide)
    · simp at h

/-- **A member has one colon outside quotes**, behind its key. -/
theorem hasColons_styleMember {e : String × StyleValue} {member : String}
    (h : styleMember e = .ok member) : HasColons 1 member.toList := by
  unfold styleMember at h
  cases hliteral : styleLiteral e.1 e.2 with
  | error error => simp [hliteral, Except.map] at h
  | ok literal =>
    rw [hliteral, Except.map] at h
    have hcolon : HasColons 1 ": ".toList := fun r => Nat.add_comm ..
    rw [← Except.ok.inj h, String.toList_append, String.toList_append]
    exact ((hasColons_objectKey e.1).append hcolon).append (hasColons_styleLiteral hliteral)

theorem hasColons_intercalate {members : List String}
    (h : ∀ member ∈ members, HasColons 1 member.toList) :
    HasColons members.length (", ".intercalate members).toList := by
  induction members with
  | nil => exact fun r => (Nat.zero_add _).symm
  | cons member members ih =>
    have hmember := h member (List.mem_cons_self ..)
    cases members with
    | nil => simpa using hmember
    | cons next members =>
      have hcomma : HasColons 0 ", ".toList := hasColons_of_plain (by decide)
      rw [String.intercalate_cons_cons, String.toList_append, String.toList_append,
        List.length_cons, Nat.add_comm]
      exact (hmember.append hcomma).append (ih fun m hm => h m (List.mem_cons_of_mem _ hm))

theorem styleObject_eq_ok_iff {m : StyleMap} {text : String} : styleObject m = .ok text ↔
    (∀ e ∈ m.entries, ∃ member, styleMember e = .ok member) ∧
      text = object (written styleMember m.entries) := by
  unfold styleObject
  constructor
  · intro h
    cases hmembers : m.entries.mapM styleMember with
    | error e => simp [hmembers, Except.map] at h
    | ok members =>
      obtain ⟨hall, rfl⟩ := mapM_eq_ok_iff.1 hmembers
      rw [hmembers] at h
      exact ⟨hall, (Except.ok.inj h).symm⟩
  · rintro ⟨hall, rfl⟩
    rw [mapM_eq_ok_iff.2 ⟨hall, rfl⟩]
    rfl

/-- **An object has as many members as the map has properties.** -/
theorem hasColons_styleObject {m : StyleMap} {text : String} (h : styleObject m = .ok text) :
    HasColons m.size text.toList := by
  obtain ⟨hall, rfl⟩ := styleObject_eq_ok_iff.1 h
  have hone : ∀ member ∈ written styleMember m.entries, HasColons 1 member.toList := by
    intro member hmember
    obtain ⟨e, -, he⟩ := mem_written_iff.1 hmember
    exact hasColons_styleMember he
  rw [OrderedMap.size, ← length_written hall]
  cases hmembers : written styleMember m.entries with
  | nil => exact hasColons_of_plain (by decide)
  | cons member members =>
    have hopen : HasColons 0 "\x7b ".toList := hasColons_of_plain (by decide)
    have hclose : HasColons 0 " \x7d".toList := hasColons_of_plain (by decide)
    have hrow := hasColons_intercalate hone
    rw [hmembers] at hrow
    rw [object, String.toList_append, String.toList_append]
    · simpa using (hopen.append hrow).append hclose
    · simp

/-! ## Declarations -/

/-- What stands between the name of a declared constant and the object of its style. -/
def sheetOpening (o : Options) : String :=
  " = " ++ o.sheetName ++ ".create(\x7b " ++ objectKey baseKey ++ ": "

/-- How many properties the style of a declared sheet has. -/
def sheetSize (o : Options) (declaration : String) : Nat :=
  outerColons false (((declaration.toList.drop "const ".length).dropWhile isIdentifierPart).drop
    (sheetOpening o).length)

theorem dropWhile_identifier_append {id : String} (h : isIdentifier id = true) {c : Char}
    (hc : isIdentifierPart c = false) (r : List Char) :
    (id.toList ++ c :: r).dropWhile isIdentifierPart = c :: r := by
  rw [List.dropWhile_append_of_pos fun _ => isIdentifierPart_of_mem h,
    List.dropWhile_cons_of_neg (by simp [hc])]

/-- **A declaration shows how many properties its sheet has.** -/
theorem sheetSize_declaration {o : Options} {r : Registration} {declaration : String}
    (hid : isIdentifier r.id = true) (hkey : r.key = baseKey)
    (h : sheetDeclaration o r = .ok declaration) : sheetSize o declaration = r.properties.size := by
  obtain ⟨object, hobject, rfl⟩ := sheetDeclaration_eq_ok_iff.1 h
  have hchars : ("const " ++ r.id ++ " = " ++ (o.sheetName ++ ".create(\x7b " ++
      objectKey r.key ++ ": " ++ object ++ " \x7d);")).toList = "const ".toList ++
        (r.id.toList ++ ((sheetOpening o).toList ++ (object.toList ++ " \x7d);".toList))) := by
    simp [sheetOpening, hkey]
  obtain ⟨rest, hopening⟩ : ∃ rest, (sheetOpening o).toList = ' ' :: rest :=
    ⟨"= ".toList ++ (o.sheetName ++ ".create(\x7b " ++ objectKey baseKey ++ ": ").toList, by
      simp [sheetOpening]⟩
  have hname := dropWhile_identifier_append hid (c := ' ') (by decide)
    (rest ++ (object.toList ++ " \x7d);".toList))
  rw [← List.cons_append, ← hopening] at hname
  have hclose : HasColons 0 " \x7d);".toList := hasColons_of_plain (by decide)
  rw [sheetSize, hchars, List.drop_left' String.length_toList, hname,
    List.drop_left' String.length_toList]
  simpa using ((hasColons_styleObject hobject).append hclose).outerColons_eq

/-- A colon between quotes belongs to a key or to a value. -/
example : sheetSize .standard
    ("const a = StyleSheet.create(\x7b base: " ++
      "\x7b flex: 1, \"a:\\\"b\": \"c: d\" \x7d \x7d);") = 2 := by
  decide +kernel

end TemplateStyles.Script
