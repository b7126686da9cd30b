import Mathlib.Data.List.Forall2
/-!
# Rows of codes

Codes one after the other, with a comma in front of each but the first. Where two codes can be told
apart from the front, and say where they end (`Separates`), so can two rows of them be: main result
`forall₂_of_rowChars`.
-/
namespace TemplateStyles

section Rows

variable {α β : Type}

/-- Codes behind the first one of a row. -/
def tailChars (code : α → List Char) (xs : List α) : List Char :=
  xs.flatMap fun x => ',' :: code x

theorem tailChars_cons (code : α → List Char) (x : α) (xs : List α) :
    tailChars code (x :: xs) = ',' :: (code x ++ tailChars code xs) := rfl

/-- Codes with commas between them. -/
def rowChars (code : α → List Char) : List α → List Char
  | [] => []
  | x :: xs => code x ++ tailChars code xs

theorem rowChars_map (code : β → List Char) (f : α → β) (xs : List α) :
    rowChars code (xs.map f) = rowChars (code ∘ f) xs := by
  cases xs with
  | nil => rfl
  | cons x xs => simp [rowChars, tailChars, List.flatMap_map]

/-- Texts with a comma and a gap between them: the gap stands in front of each. -/
theorem toList_intercalate_gap (gap : List Char) (s : String) (row : List String) :
    gap ++ ((String.ofList (',' :: gap)).intercalate (s :: row)).toList =
      rowChars (fun s => gap ++ s.toList) (s :: row) := by
  induction row generalizing s with
  | nil => simp [rowChars, tailChars]
  | cons t row ih =>
    rw [String.intercalate_cons_cons, String.toList_append, String.toList_append,
      String.toList_ofList, rowChars, tailChars_cons, List.append_assoc, List.append_assoc,
      List.cons_append, ih t]
    rfl

theorem toList_intercalate_comma (row : List String) :
    (",".intercalate row).toList = rowChars String.toList row := by
  cases row with
  | nil => rfl
  | cons s row => exact toList_intercalate_gap [] s row

/-- The codes of `x` and `y` tell them apart, up to `R`, and say where they end, if what follows
does not go on with a code. -/
def Separates (Ends : List Char → Prop) (R : α → α → Prop) (code : α → List Char) (x y : α) :
    Prop :=
  ∀ r s, Ends r → Ends s → code x ++ r = code y ++ s → R x y ∧ r = s

variable {Ends : List Char → Prop} {R : α → α → Prop} {code : α → List Char} {close : Char}
  {r s : List Char}

theorem ends_tailChars (hcomma : ∀ r, Ends (',' :: r)) (hclose : ∀ r, Ends (close :: r))
    (xs : List α) (r : List Char) : Ends (tailChars code xs ++ close :: r) := by
  cases xs with
  | nil => exact hclose r
  | cons x xs => exact hcomma _

/-- The codes behind the first one are taken off one after the other. -/
theorem forall₂_of_tailChars (hcomma : ∀ r, Ends (',' :: r)) (hclose : ∀ r, Ends (close :: r))
    (hne : close ≠ ',') {xs ys : List α} (hxs : ∀ x ∈ xs, ∀ y ∈ ys, Separates Ends R code x y)
    (h : tailChars code xs ++ close :: r = tailChars code ys ++ close :: s) :
    List.Forall₂ R xs ys ∧ r = s := by
  induction xs generalizing ys with
  | nil =>
    cases ys with
    | nil => exact ⟨.nil, (List.cons.inj h).2⟩
    | cons y ys => exact absurd (List.cons.inj h).1 hne
  | cons x xs ih =>
    cases ys with
    | nil => exact absurd (List.cons.inj h).1.symm hne
    | cons y ys =>
      rw [tailChars_cons, tailChars_cons, List.cons_append, List.cons_append, List.append_assoc,
        List.append_assoc] at h
      obtain ⟨hxy, hrest⟩ := hxs x (List.mem_cons_self ..) y (List.mem_cons_self ..) _ _
        (ends_tailChars hcomma hclose xs r) (ends_tailChars hcomma hclose ys s)
        (List.cons.inj h).2
      obtain ⟨hall, hr⟩ := ih (fun x hx y hy => hxs x (List.mem_cons_of_mem _ hx) y
        (List.mem_cons_of_mem _ hy)) hrest
      exact ⟨.cons hxy hall, hr⟩

/-- **A row says which codes it is made of**, and where it ends. -/
theorem forall₂_of_rowChars (hcomma : ∀ r, Ends (',' :: r)) (hclose : ∀ r, Ends (close :: r))
    (hne : close ≠ ',') {x y : α} {xs ys : List α}
    (hxs : ∀ x' ∈ x :: xs, ∀ y' ∈ y :: ys, Separates Ends R code x' y')
    (h : rowChars code (x :: xs) ++ close :: r = rowChars code (y :: ys) ++ close :: s) :
    List.Forall₂ R (x :: xs) (y :: ys) ∧ r = s := by
  refine forall₂_of_tailChars hcomma hclose hne hxs ?_
  rw [tailChars_cons, tailChars_cons, List.cons_append, List.cons_append]
  exact congrArg (',' :: ·) h

end Rows

end TemplateStyles
