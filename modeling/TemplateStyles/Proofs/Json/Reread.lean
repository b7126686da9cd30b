import TemplateStyles.Json.Reader
import TemplateStyles.Proofs.Json.Compact
/-!
# Compact texts are read back

A compact text is cut into the tokens of its value (`tokens?_compact`): every token ends where the
text of the next one starts. From the tokens of a value the machine builds the document that writes
the value, inside whatever arrays and objects are open (`builds`). Only numbers may change,
since a double is read in two roundings (`JsonNumber.reread`). Main result `read?_compact`.
-/
namespace TemplateStyles

/-- The number that is read where a number was written. -/
def JsonNumber.reread (n : JsonNumber) : Option JsonNumber :=
  (scanNumber? n.text.toList).bind fun p => p.1.toNumber?

namespace Json

mutual

/-- The document that is read where a value was written. -/
def reread : Json → Written
  | .num n => .leaf (n.reread.map .num)
  | .arr items => .arr (rereadItems items)
  | .obj members => .obj (rereadMembers members)
  | .null => .leaf (some .null)
  | .bool b => .leaf (some (.bool b))
  | .str s => .leaf (some (.str s))

def rereadItems : List Json → List Written
  | [] => []
  | v :: items => reread v :: rereadItems items

def rereadMembers : List (String × Json) → List (Option String × Written)
  | [] => []
  | (k, v) :: members => (some k, reread v) :: rereadMembers members

end

/-! ## The tokens of values -/

/-- The tokens of items or members with commas between them. -/
def tokenRow : List (List Token) → List Token
  | [] => []
  | first :: row => first ++ row.flatMap (.comma :: ·)

mutual

def tokens : Json → List Token
  | .num n => [.scalar (n.reread.map .num)]
  | .arr items => .openArray :: (tokenRow (itemTokens items) ++ [.closeArray])
  | .obj members => .openObject :: (tokenRow (memberTokens members) ++ [.closeObject])
  | .null => [.scalar (some .null)]
  | .bool b => [.scalar (some (.bool b))]
  | .str s => [.text (some s)]

def itemTokens : List Json → List (List Token)
  | [] => []
  | v :: items => tokens v :: itemTokens items

def memberTokens : List (String × Json) → List (List Token)
  | [] => []
  | (k, v) :: members => (.text (some k) :: .colon :: tokens v) :: memberTokens members

end

theorem rereadItems_eq (items : List Json) : rereadItems items = items.map reread := by
  induction items with
  | nil => rfl
  | cons v items ih => rw [rereadItems, ih, List.map_cons]

theorem rereadMembers_eq (members : List (String × Json)) :
    rereadMembers members = members.map fun m => (some m.1, m.2.reread) := by
  induction members with
  | nil => rfl
  | cons m members ih => rw [rereadMembers, ih, List.map_cons]

theorem itemTokens_eq (items : List Json) : itemTokens items = items.map tokens := by
  induction items with
  | nil => rfl
  | cons v items ih => rw [itemTokens, ih, List.map_cons]

theorem memberTokens_eq (members : List (String × Json)) :
    memberTokens members =
      members.map fun m => .text (some m.1) :: .colon :: m.2.tokens := by
  induction members with
  | nil => rfl
  | cons m members ih => rw [memberTokens, ih, List.map_cons]

/-! ## Cutting texts -/

/-- The text is cut into these tokens, however many more would have been allowed for. -/
def Cut (s : List Char) (ts : List Token) : Prop :=
  ∀ n, s.length ≤ n → tokensWithin? n s = some ts

theorem cut_nil : Cut [] [] := by
  intro n _
  cases n <;> rfl

/-- A token at the front is cut off. -/
theorem Cut.cons {c : Char} {s r : List Char} {t : Token} {ts : List Token}
    (hc : isSpace c = false) (hscan : scanToken? (c :: s) = some (t, r))
    (hr : r.length ≤ s.length) (h : Cut r ts) : Cut (c :: s) (t :: ts) := by
  intro n hn
  cases n with
  | zero => simp at hn
  | succ n =>
    rw [List.length_cons] at hn
    rw [tokensWithin?, if_neg (by simp [hc]), hscan, Option.bind_some, h n (by omega)]
    rfl

theorem cut_text (k : String) {r : List Char} {ts : List Token} (h : Cut r ts) :
    Cut ((Quoted.encode k).toList ++ r) (.text (some k) :: ts) := by
  rw [Quoted.toList_encode_append]
  refine h.cons (r := r) (by decide) ?_ ?_
  · rw [scanToken?, Quoted.scan?_encodeChars, Option.map_some, Quoted.text?_pieces]
  · rw [List.length_append, List.length_cons]
    omega

/-- What starts like a number is no other token. -/
theorem not_mem_of_numberStart {c : Char} (hc : c = '-' ∨ Text.Digit.isAscii c = true) :
    c ∉ ['\x7b', '\x7d', '[', ']', ',', ':', 'n', 't', 'f', '"', ' ', '\t', '\n', '\r'] := by
  intro hmem
  rcases hc with rfl | hc
  · revert hmem
    decide
  · simp only [List.mem_cons, List.not_mem_nil, or_false] at hmem
    rcases hmem with rfl | rfl | rfl | rfl | rfl | rfl | rfl | rfl | rfl | rfl | rfl | rfl | rfl |
      rfl <;> exact absurd hc (by decide)

theorem scanToken?_number {c : Char} (hc : c = '-' ∨ Text.Digit.isAscii c = true)
    (s : List Char) : scanToken? (c :: s) =
      (scanNumber? (c :: s)).map fun p => (.scalar (p.1.toNumber?.map .num), p.2) := by
  have hother := not_mem_of_numberStart hc
  simp only [List.mem_cons, List.not_mem_nil, or_false, not_or] at hother
  obtain ⟨h1, h2, h3, h4, h5, h6, h7, h8, h9, h10, -⟩ := hother
  rw [scanToken?] <;> simp_all

theorem cut_number (n : JsonNumber) {r : List Char} {ts : List Token} (hr : EndsNumber r)
    (h : Cut r ts) :
    Cut (n.text.toList ++ r) (.scalar (n.reread.map .num) :: ts) := by
  obtain ⟨l, hl, -, htext⟩ := n.exists_literal
  have hreread : n.reread = l.toNumber? := by
    have hends : EndsNumber [] := by simp [EndsNumber]
    have hscan := hl.scanNumber? hends
    rw [List.append_nil] at hscan
    rw [JsonNumber.reread, htext, hscan, Option.bind_some]
  have hscan := hl.scanNumber? hr
  obtain ⟨c, s, hs, hc⟩ := n.exists_text_cons
  rw [← htext, hs, List.cons_append] at hscan
  rw [hs, hreread, List.cons_append]
  refine h.cons (r := r) ?_ ?_ (by rw [List.length_append]; omega)
  · have hother := not_mem_of_numberStart hc
    simp only [List.mem_cons, not_or] at hother
    simp [isSpace, hother]
  · rw [scanToken?_number hc, hscan, Option.map_some]

/-- The text of `x`, with anything behind it that does not go on with a number, is cut into the
tokens of `x` and those of what is behind. -/
def CutAs {α : Type} (code : α → List Char) (tokensOf : α → List Token) (x : α) : Prop :=
  ∀ r ts, EndsNumber r → Cut r ts → Cut (code x ++ r) (tokensOf x ++ ts)

section Rows

variable {α : Type} {code : α → List Char} {tokensOf : α → List Token} {close : Char}
  {closing : Token} {r : List Char} {ts : List Token}

theorem cut_tailChars (hclose : close = ']' ∨ close = '\x7d') {xs : List α}
    (hxs : ∀ x ∈ xs, CutAs code tokensOf x) (h : Cut (close :: r) (closing :: ts)) :
    Cut (tailChars code xs ++ close :: r)
      ((xs.map tokensOf).flatMap (.comma :: ·) ++ closing :: ts) := by
  induction xs with
  | nil => exact h
  | cons x xs ih =>
    have hrest := ih fun x hx => hxs x (List.mem_cons_of_mem _ hx)
    have hx := hxs x (List.mem_cons_self ..) _ _ (endsNumber_tailChars hclose xs r) hrest
    rw [tailChars_cons, List.cons_append, List.append_assoc, List.map_cons, List.flatMap_cons,
      List.cons_append, List.cons_append, List.append_assoc]
    exact hx.cons (by decide) rfl (Nat.le_refl _)

/-- A row in brackets is cut into the tokens of its members and the commas between them. -/
theorem cut_rowChars (hclose : close = ']' ∨ close = '\x7d') {xs : List α}
    (hxs : ∀ x ∈ xs, CutAs code tokensOf x) (h : Cut (close :: r) (closing :: ts)) :
    Cut (rowChars code xs ++ close :: r) (tokenRow (xs.map tokensOf) ++ closing :: ts) := by
  cases xs with
  | nil => exact h
  | cons x xs =>
    have hrest := cut_tailChars hclose (fun x hx => hxs x (List.mem_cons_of_mem _ hx)) h
    have hx := hxs x (List.mem_cons_self ..) _ _ (endsNumber_tailChars hclose xs r) hrest
    rw [rowChars, List.append_assoc, List.map_cons, tokenRow, List.append_assoc]
    exact hx

end Rows

theorem cutAs_member {m : String × Json} (h : CutAs compactChars tokens m.2) :
    CutAs memberChars (fun m => .text (some m.1) :: .colon :: m.2.tokens) m := by
  intro r ts hr hts
  have hvalue := h r ts hr hts
  have hcolon : Cut (':' :: (m.2.compactChars ++ r)) (.colon :: (m.2.tokens ++ ts)) :=
    hvalue.cons (by decide) rfl (Nat.le_refl _)
  rw [memberChars, List.append_assoc, List.cons_append]
  exact cut_text m.1 hcolon

mutual

/-- **A compact text is cut into the tokens of its value.** -/
theorem cutAs : (v : Json) → CutAs compactChars tokens v
  | .null => fun r _ _ h =>
    h.cons (by decide) rfl (List.suffix_append ['u', 'l', 'l'] r).length_le
  | .bool true => fun r _ _ h =>
    h.cons (by decide) rfl (List.suffix_append ['r', 'u', 'e'] r).length_le
  | .bool false => fun r _ _ h =>
    h.cons (by decide) rfl (List.suffix_append ['a', 'l', 's', 'e'] r).length_le
  | .num n => fun r ts hr h => cut_number n hr h
  | .str s => fun r ts _ h => cut_text s h
  | .arr items => by
    intro r ts _ h
    have hclose : Cut (']' :: r) (.closeArray :: ts) := h.cons (by decide) rfl (Nat.le_refl _)
    have hrow := cut_rowChars (.inl rfl) (cutAs_items items) hclose
    simp only [compactChars_arr, tokens, itemTokens_eq, List.cons_append, List.append_assoc,
      List.nil_append]
    exact hrow.cons (by decide) rfl (Nat.le_refl _)
  | .obj members => by
    intro r ts _ h
    have hclose : Cut ('\x7d' :: r) (.closeObject :: ts) := h.cons (by decide) rfl (Nat.le_refl _)
    have hrow := cut_rowChars (.inr rfl) (cutAs_members members) hclose
    simp only [compactChars_obj, tokens, memberTokens_eq, List.cons_append, List.append_assoc,
      List.nil_append]
    exact hrow.cons (by decide) rfl (Nat.le_refl _)

theorem cutAs_items : (items : List Json) → ∀ v ∈ items, CutAs compactChars tokens v
  | [] => by simp
  | v :: items => by
    intro w hw
    rcases List.mem_cons.1 hw with h | hw
    · rw [h]
      exact cutAs v
    · exact cutAs_items items w hw

theorem cutAs_members : (members : List (String × Json)) → ∀ m ∈ members,
    CutAs memberChars (fun m => .text (some m.1) :: .colon :: m.2.tokens) m
  | [] => by simp
  | (k, v) :: members => by
    intro m hm
    rcases List.mem_cons.1 hm with h | hm
    · rw [h]
      exact cutAs_member (cutAs v)
    · exact cutAs_members members m hm

end

theorem tokens?_compact (v : Json) : tokens? v.compact.toList = some v.tokens := by
  have hcut := cutAs v [] [] (by simp [EndsNumber]) cut_nil
  rw [List.append_nil, List.append_nil] at hcut
  exact hcut _ (Nat.le_refl _)

/-! ## Building documents -/

namespace ReaderState

/-- A state in which a value may start. -/
def AwaitsValue (e : Expecting) : Prop := e = .value ∨ e = .itemOrClose

/-- From these tokens, wherever a value may start, the machine builds the document `w`. -/
def Builds (ts : List Token) (w : Written) : Prop :=
  ∀ fs e rest, AwaitsValue e →
    run? ⟨fs, e⟩ (ts ++ rest) = (complete w fs).bind fun st => st.run? rest

theorem run?_cons (st : ReaderState) (t : Token) (ts : List Token) :
    st.run? (t :: ts) = (st.step? t).bind fun st => st.run? ts := rfl

/-- A token that starts a value is taken in both states. -/
theorem step?_of_awaitsValue {fs : List Frame} {e : Expecting} {t : Token} (h : AwaitsValue e)
    (ht : t ≠ .closeArray) : step? ⟨fs, e⟩ t = startValue fs t := by
  rcases h with rfl | rfl
  · rfl
  · cases t <;> first | rfl | exact absurd rfl ht

theorem builds_scalar (v : Option Json) : Builds [.scalar v] (.leaf v) := by
  intro fs e rest he
  rw [List.singleton_append, run?_cons, step?_of_awaitsValue he (by simp)]
  rfl

theorem builds_text (s : String) : Builds [.text (some s)] (.leaf (some (.str s))) := by
  intro fs e rest he
  rw [List.singleton_append, run?_cons, step?_of_awaitsValue he (by simp)]
  rfl

/-! ### Rows -/

/-- What arrays and objects have in common while they are open. -/
structure RowForm (β : Type) where
  frame : List β → Frame
  /-- What may come behind the opening bracket. -/
  opened : Expecting
  /-- What may come behind a comma. -/
  next : Expecting
  closing : Token
  document : List β → Written
  step?_empty : ∀ fs, step? ⟨frame [] :: fs, opened⟩ closing = complete (document []) fs
  step?_comma : ∀ fs entries, step? ⟨frame entries :: fs, .commaOrClose⟩ .comma =
    some ⟨frame entries :: fs, next⟩
  step?_closing : ∀ fs entries, step? ⟨frame entries :: fs, .commaOrClose⟩ closing =
    complete (document entries.reverse) fs

namespace RowForm

def array : RowForm Written where
  frame := .array
  opened := .itemOrClose
  next := .value
  closing := .closeArray
  document := .arr
  step?_empty _ := rfl
  step?_comma _ _ := rfl
  step?_closing _ _ := rfl

def object : RowForm (Option String × Written) where
  frame := .object
  opened := .keyOrClose
  next := .key
  closing := .closeObject
  document := .obj
  step?_empty _ := rfl
  step?_comma _ _ := rfl
  step?_closing _ _ := rfl

variable {α β : Type} {form : RowForm β} {tokensOf : α → List Token} {entryOf : α → β}

/-- The tokens put one more entry into the innermost frame, behind the opening bracket and behind a
comma. -/
def Fills (form : RowForm β) (ts : List Token) (entry : β) : Prop :=
  ∀ fs entries e rest, e = form.opened ∨ e = form.next →
    run? ⟨form.frame entries :: fs, e⟩ (ts ++ rest) =
      run? ⟨form.frame (entry :: entries) :: fs, .commaOrClose⟩ rest

/-- The entries behind the first one are put in front of those that the frame has. -/
theorem run?_more {xs : List α} (hxs : ∀ x ∈ xs, form.Fills (tokensOf x) (entryOf x))
    (fs : List Frame) (entries : List β) (rest : List Token) :
    run? ⟨form.frame entries :: fs, .commaOrClose⟩
        ((xs.map tokensOf).flatMap (.comma :: ·) ++ form.closing :: rest) =
      (complete (form.document (entries.reverse ++ xs.map entryOf)) fs).bind
        fun st => st.run? rest := by
  induction xs generalizing entries with
  | nil =>
    rw [List.map_nil, List.map_nil, List.append_nil, List.flatMap_nil, List.nil_append, run?_cons,
      form.step?_closing]
  | cons x xs ih =>
    have hx := hxs x (List.mem_cons_self ..)
    have hrest := ih (fun x hx => hxs x (List.mem_cons_of_mem _ hx)) (entryOf x :: entries)
    rw [List.reverse_cons, List.append_assoc, List.singleton_append] at hrest
    rw [List.map_cons, List.map_cons, List.flatMap_cons, List.append_assoc, List.cons_append,
      ← hrest, run?_cons, form.step?_comma, Option.bind_some]
    exact hx fs entries form.next _ (.inr rfl)

/-- **From the tokens of a row the machine builds the array or object of its entries.** -/
theorem run?_row {xs : List α} (hxs : ∀ x ∈ xs, form.Fills (tokensOf x) (entryOf x))
    (fs : List Frame) (rest : List Token) :
    run? ⟨form.frame [] :: fs, form.opened⟩
        (tokenRow (xs.map tokensOf) ++ form.closing :: rest) =
      (complete (form.document (xs.map entryOf)) fs).bind fun st => st.run? rest := by
  cases xs with
  | nil =>
    rw [List.map_nil, List.map_nil, tokenRow, List.nil_append, run?_cons, form.step?_empty]
  | cons x xs =>
    have hx := hxs x (List.mem_cons_self ..)
    have hrest := run?_more (fun x hx => hxs x (List.mem_cons_of_mem _ hx)) fs [entryOf x] rest
    rw [List.map_cons, tokenRow, List.append_assoc, hx _ _ _ _ (.inl rfl)]
    exact hrest

theorem fills_item {ts : List Token} {w : Written} (h : Builds ts w) : array.Fills ts w :=
  fun fs items e rest he => h (.array items :: fs) e rest he.symm

theorem fills_member {ts : List Token} {w : Written} (h : Builds ts w) (k : String) :
    object.Fills (.text (some k) :: .colon :: ts) (some k, w) := by
  intro fs members e rest he
  have hkey : step? ⟨.object members :: fs, e⟩ (.text (some k)) =
      some ⟨.member members (some k) :: fs, .colon⟩ := by
    rcases he with rfl | rfl <;> rfl
  rw [object, List.cons_append, run?_cons, hkey, Option.bind_some, List.cons_append, run?_cons]
  exact h (.member members (some k) :: fs) .value rest (.inl rfl)

end RowForm

theorem builds_arr {items : List Json} (h : ∀ v ∈ items, Builds v.tokens v.reread) :
    Builds (tokens (.arr items)) (reread (.arr items)) := by
  intro fs e rest he
  have hrow := RowForm.run?_row (fun v hv => RowForm.fills_item (h v hv)) fs rest
  rw [tokens, itemTokens_eq, reread, rereadItems_eq, List.cons_append, run?_cons,
    step?_of_awaitsValue he (by simp), List.append_assoc]
  exact hrow

theorem builds_obj {members : List (String × Json)}
    (h : ∀ m ∈ members, Builds m.2.tokens m.2.reread) :
    Builds (tokens (.obj members)) (reread (.obj members)) := by
  intro fs e rest he
  have hrow := RowForm.run?_row (fun m hm => RowForm.fills_member (h m hm) m.1) fs rest
  rw [tokens, memberTokens_eq, reread, rereadMembers_eq, List.cons_append, run?_cons,
    step?_of_awaitsValue he (by simp), List.append_assoc]
  exact hrow

mutual

/-- **The tokens of a value build the document that writes it.** -/
theorem builds : (v : Json) → Builds v.tokens v.reread
  | .null => builds_scalar (some .null)
  | .bool b => builds_scalar (some (.bool b))
  | .num n => builds_scalar (n.reread.map .num)
  | .str s => builds_text s
  | .arr items => builds_arr (builds_items items)
  | .obj members => builds_obj (builds_members members)

theorem builds_items : (items : List Json) → ∀ v ∈ items, Builds v.tokens v.reread
  | [] => by simp
  | v :: items => by
    intro w hw
    rcases List.mem_cons.1 hw with h | hw
    · rw [h]
      exact builds v
    · exact builds_items items w hw

theorem builds_members : (members : List (String × Json)) →
    ∀ m ∈ members, Builds m.2.tokens m.2.reread
  | [] => by simp
  | (k, v) :: members => by
    intro m hm
    rcases List.mem_cons.1 hm with h | hm
    · rw [h]
      exact builds v
    · exact builds_members members m hm

end

end ReaderState

/-- **A compact text is read as the document that writes its value.** -/
theorem read?_compact (v : Json) : read? v.compact = some v.reread := by
  have hbuilds := ReaderState.builds v [] .value [] (.inl rfl)
  rw [List.append_nil] at hbuilds
  rw [read?, tokens?_compact, Option.bind_some, ReaderState.start, hbuilds]
  rfl

end Json

end TemplateStyles
