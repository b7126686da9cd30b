import TemplateStyles.Json.Printer
import TemplateStyles.Proofs.Json.Number
import TemplateStyles.Proofs.Json.Quoted
import TemplateStyles.Proofs.Text.Row
/-!
# Compact texts are unambiguous

The first character of a compact text says which kind of value it writes (`kind_eq`), and by its
kind a value says where its text ends: rows of items and members are taken apart from the front
(`eq_of_rowChars`). Main result `compact_injective`: two values with one compact text are the same,
down to the order of members and the signs of zeros.
-/
namespace TemplateStyles

/-! ## Codes that say where they end -/

/-- The code of `x` says that it is the one of `x`, and where it ends, if what follows does not go
on with a number. -/
def Delimits {α : Type} (code : α → List Char) (x : α) : Prop :=
  ∀ y, Separates EndsNumber Eq code x y

section Rows

variable {α : Type} {code : α → List Char} {close : Char} {r s : List Char}

theorem endsNumber_cons {c : Char} (h : c = ',' ∨ c = ']' ∨ c = '\x7d') (r : List Char) :
    EndsNumber (c :: r) := by
  intro d hd
  rw [← Option.some.inj hd]
  rcases h with rfl | rfl | rfl <;> decide

theorem endsNumber_tailChars (h : close = ']' ∨ close = '\x7d') (xs : List α) (r : List Char) :
    EndsNumber (tailChars code xs ++ close :: r) :=
  ends_tailChars (endsNumber_cons (.inl rfl)) (endsNumber_cons (.inr h)) xs r

/-- **A row in brackets says which codes it is made of**, and where it ends. -/
theorem eq_of_rowChars (hclose : close = ']' ∨ close = '\x7d')
    (hstart : ∀ x : α, ∃ c t, code x = c :: t ∧ c ≠ close) {xs ys : List α}
    (hxs : ∀ x ∈ xs, Delimits code x)
    (h : rowChars code xs ++ close :: r = rowChars code ys ++ close :: s) : xs = ys ∧ r = s := by
  have hcomma : close ≠ ',' := by rcases hclose with rfl | rfl <;> decide
  have hne : ∀ (x : α) (xs : List α) (r s : List Char),
      close :: s ≠ rowChars code (x :: xs) ++ close :: r := by
    intro x xs r s heq
    obtain ⟨c, t, hcode, hc⟩ := hstart x
    rw [rowChars, hcode] at heq
    exact hc (List.cons.inj heq).1.symm
  cases xs with
  | nil =>
    cases ys with
    | nil => exact ⟨rfl, (List.cons.inj h).2⟩
    | cons y ys => exact absurd h (hne y ys s r)
  | cons x xs =>
    cases ys with
    | nil => exact absurd h.symm (hne x xs r s)
    | cons y ys =>
      rw [← List.forall₂_eq_eq_eq]
      exact forall₂_of_rowChars (endsNumber_cons (.inl rfl)) (endsNumber_cons (.inr hclose)) hcomma
        (fun x hx y _ => hxs x hx y) h

end Rows

namespace Json

/-! ## The texts of values -/

def compactChars (v : Json) : List Char := v.compact.toList

def memberChars (m : String × Json) : List Char :=
  (Quoted.encode m.1).toList ++ ':' :: m.2.compactChars

theorem compactItems_eq (items : List Json) : compactItems items = items.map compact := by
  induction items with
  | nil => rfl
  | cons v items ih => rw [compactItems, ih, List.map_cons]

theorem compactMembers_eq (members : List (String × Json)) :
    compactMembers members = members.map fun m => String.ofList (memberChars m) := by
  induction members with
  | nil => rfl
  | cons m members ih =>
    have hcolon : ":".toList = [':'] := rfl
    have hmember : Quoted.encode m.1 ++ ":" ++ m.2.compact = String.ofList (memberChars m) := by
      rw [← String.toList_inj, String.toList_append, String.toList_append, hcolon,
        String.toList_ofList, memberChars, compactChars, List.append_assoc, List.singleton_append]
    rw [compactMembers, ih, List.map_cons, hmember]

theorem compactChars_arr (items : List Json) :
    compactChars (.arr items) = '[' :: (rowChars compactChars items ++ [']']) := by
  rw [compactChars, compact, String.toList_append, String.toList_append, compactItems_eq,
    toList_intercalate_comma, rowChars_map]
  rfl

theorem compactChars_obj (members : List (String × Json)) :
    compactChars (.obj members) = '\x7b' :: (rowChars memberChars members ++ ['\x7d']) := by
  rw [compactChars, compact, String.toList_append, String.toList_append, compactMembers_eq,
    toList_intercalate_comma, rowChars_map]
  have hcode : String.toList ∘ (fun m => String.ofList (memberChars m)) = memberChars := by
    funext m
    exact String.toList_ofList
  rw [hcode]
  rfl

/-! ## Kinds of values -/

/-- The kind of a value, by a character that its text may start with. -/
def kind : Json → Char
  | .null => 'n'
  | .bool _ => 't'
  | .num _ => '0'
  | .str _ => '"'
  | .arr _ => '['
  | .obj _ => '\x7b'

/-- The kind of a value whose text starts with the given character. -/
def kindOf (c : Char) : Char :=
  if c = 'f' then 't' else if c = '-' ∨ Text.Digit.isAscii c = true then '0' else c

theorem exists_compactChars_cons (v : Json) :
    ∃ c r, v.compactChars = c :: r ∧ kindOf c = v.kind := by
  cases v with
  | null => exact ⟨'n', _, rfl, by decide⟩
  | bool b =>
    cases b with
    | true => exact ⟨'t', _, rfl, by decide⟩
    | false => exact ⟨'f', _, rfl, by decide⟩
  | num n =>
    obtain ⟨c, r, htext, hc⟩ := n.exists_text_cons
    refine ⟨c, r, htext, ?_⟩
    have hf : c ≠ 'f' := by
      rintro rfl
      exact absurd hc (by decide)
    rw [kindOf, if_neg hf, if_pos hc]
    rfl
  | str s =>
    refine ⟨'"', Quoted.encodeChars s.toList ++ ['"'], ?_, rfl⟩
    rw [compactChars, compact, Quoted.encode, String.toList_ofList, List.cons_append]
  | arr items => exact ⟨'[', _, compactChars_arr items, rfl⟩
  | obj members => exact ⟨'\x7b', _, compactChars_obj members, rfl⟩

theorem kind_eq {v w : Json} {r s : List Char} (h : v.compactChars ++ r = w.compactChars ++ s) :
    v.kind = w.kind := by
  obtain ⟨c, t, hv, hc⟩ := v.exists_compactChars_cons
  obtain ⟨d, u, hw, hd⟩ := w.exists_compactChars_cons
  rw [hv, hw] at h
  rw [← hc, ← hd, (List.cons.inj h).1]

/-- No text of a value starts with a closing bracket. -/
theorem compactChars_starts (v : Json) : ∃ c t, v.compactChars = c :: t ∧ c ≠ ']' := by
  obtain ⟨c, t, hv, hc⟩ := v.exists_compactChars_cons
  refine ⟨c, t, hv, ?_⟩
  rintro rfl
  have hkind : ∀ w : Json, w.kind ∈ ['n', 't', '0', '"', '[', '\x7b'] := by
    intro w
    cases w <;> simp [kind]
  exact absurd (hc ▸ hkind v) (by decide)

theorem memberChars_starts (m : String × Json) : ∃ c t, memberChars m = c :: t ∧ c ≠ '\x7d' :=
  ⟨'"', _, by rw [memberChars, Quoted.encode, String.toList_ofList]; rfl, by decide⟩

/-! ## Values -/

theorem delimits_member {m : String × Json} (h : Delimits compactChars m.2) :
    Delimits memberChars m := by
  intro n r s hr hs heq
  rw [memberChars, memberChars, List.append_assoc, List.append_assoc] at heq
  obtain ⟨hkey, hrest⟩ := Quoted.encode_append_inj heq
  obtain ⟨hvalue, hrs⟩ := h n.2 r s hr hs (List.cons.inj hrest).2
  exact ⟨Prod.ext hkey hvalue, hrs⟩

mutual

/-- **A value says which one it is**, and where its text ends. -/
theorem delimits : (v : Json) → Delimits compactChars v
  | .null => by
    intro w r s _ _ h
    have hkind := kind_eq h
    cases w with
    | null => exact ⟨rfl, List.append_cancel_left h⟩
    | _ => simp [kind] at hkind
  | .bool b => by
    intro w r s _ _ h
    have hkind := kind_eq h
    cases w with
    | bool b' =>
      cases b <;> cases b'
      · exact ⟨rfl, List.append_cancel_left h⟩
      · exact absurd (List.cons.inj h).1 (by decide)
      · exact absurd (List.cons.inj h).1 (by decide)
      · exact ⟨rfl, List.append_cancel_left h⟩
    | _ => simp [kind] at hkind
  | .num n => by
    intro w r s hr hs h
    have hkind := kind_eq h
    cases w with
    | num k =>
      obtain ⟨rfl, hrs⟩ := JsonNumber.text_append_inj hr hs h
      exact ⟨rfl, hrs⟩
    | _ => simp [kind] at hkind
  | .str t => by
    intro w r s _ _ h
    have hkind := kind_eq h
    cases w with
    | str u =>
      obtain ⟨rfl, hrs⟩ := Quoted.encode_append_inj h
      exact ⟨rfl, hrs⟩
    | _ => simp [kind] at hkind
  | .arr items => by
    intro w r s _ _ h
    have hkind := kind_eq h
    cases w with
    | arr items' =>
      simp only [compactChars_arr, List.cons_append, List.append_assoc, List.nil_append,
        List.cons.injEq, true_and] at h
      obtain ⟨rfl, hrs⟩ := eq_of_rowChars (.inl rfl) compactChars_starts (delimits_items items) h
      exact ⟨rfl, hrs⟩
    | _ => simp [kind] at hkind
  | .obj members => by
    intro w r s _ _ h
    have hkind := kind_eq h
    cases w with
    | obj members' =>
      simp only [compactChars_obj, List.cons_append, List.append_assoc, List.nil_append,
        List.cons.injEq, true_and] at h
      obtain ⟨rfl, hrs⟩ :=
        eq_of_rowChars (.inr rfl) memberChars_starts (delimits_members members) h
      exact ⟨rfl, hrs⟩
    | _ => simp [kind] at hkind

theorem delimits_items : (items : List Json) → ∀ v ∈ items, Delimits compactChars v
  | [] => by simp
  | v :: items => by
    intro w hw
    rcases List.mem_cons.1 hw with h | hw
    · rw [h]
      exact delimits v
    · exact delimits_items items w hw

theorem delimits_members :
    (members : List (String × Json)) → ∀ m ∈ members, Delimits memberChars m
  | [] => by simp
  | (k, v) :: members => by
    intro m hm
    rcases List.mem_cons.1 hm with h | hm
    · rw [h]
      exact delimits_member (delimits v)
    · exact delimits_members members m hm

end

/-- **Two values with one compact text are the same.** -/
theorem compact_injective {v w : Json} (h : v.compact = w.compact) : v = w := by
  have hends : EndsNumber [] := by simp [EndsNumber]
  have hchars : v.compactChars ++ [] = w.compactChars ++ [] := by
    rw [compactChars, h, compactChars]
  exact (delimits v w [] [] hends hends hchars).1

end Json

end TemplateStyles
