/-!
# Insertion-ordered maps

A finite map from text keys that remembers the order in which its keys first came. Writing a key
again keeps its place (`keys_insert_of_mem`); there are two ways to take a key out, one that
closes the gap (`erase`) and one that moves the last entry into it (`eraseSwap`). Both look the
same through `get?` (`get?_erase`, `get?_eraseSwap`): they differ only in the order of what is
left.
-/
namespace TemplateStyles

/-! ## Entry lists -/

namespace Entries

variable {α : Type}

/-- The value under `k`, if there is one: the first entry counts. -/
def find? (k : String) : List (String × α) → Option α
  | [] => none
  | (k', v) :: r => if k' = k then some v else find? k r

/-- Writes `v` under `k`: in place when the key is there, at the end otherwise. -/
def put (k : String) (v : α) : List (String × α) → List (String × α)
  | [] => [(k, v)]
  | (k', v') :: r => if k' = k then (k', v) :: r else (k', v') :: put k v r

/-- Takes the entry of `k` out and closes the gap. -/
def drop (k : String) : List (String × α) → List (String × α)
  | [] => []
  | (k', v) :: r => if k' = k then r else (k', v) :: drop k r

/-- Takes the entry of `k` out and puts the last entry in its place. -/
def dropSwap (k : String) : List (String × α) → List (String × α)
  | [] => []
  | (k', v) :: r =>
    if k' = k then
      match r.getLast? with
      | none => []
      | some last => last :: r.dropLast
    else (k', v) :: dropSwap k r

theorem map_fst_put_of_mem {k : String} {v : α} {l : List (String × α)}
    (h : k ∈ l.map Prod.fst) : (put k v l).map Prod.fst = l.map Prod.fst := by
  induction l with
  | nil => simp at h
  | cons e r ih =>
    obtain ⟨k', v'⟩ := e
    by_cases hk : k' = k
    · simp [put, hk]
    · simp only [List.map_cons, List.mem_cons] at h
      rcases h with h | h
      · exact absurd h.symm hk
      · simp [put, hk, ih h]

theorem put_of_not_mem {k : String} {v : α} {l : List (String × α)}
    (h : k ∉ l.map Prod.fst) : put k v l = l ++ [(k, v)] := by
  induction l with
  | nil => rfl
  | cons e r ih =>
    obtain ⟨k', v'⟩ := e
    simp only [List.map_cons, List.mem_cons, not_or] at h
    have hk : ¬ k' = k := fun e => h.1 e.symm
    simp [put, hk, ih h.2]

theorem nodup_put {k : String} {v : α} {l : List (String × α)}
    (h : (l.map Prod.fst).Nodup) : ((put k v l).map Prod.fst).Nodup := by
  by_cases hk : k ∈ l.map Prod.fst
  · rw [map_fst_put_of_mem hk]; exact h
  · rw [put_of_not_mem hk]
    simp only [List.map_append, List.map_cons, List.map_nil]
    rw [List.nodup_append]
    refine ⟨h, by simp, ?_⟩
    intro a ha b hb
    simp only [List.mem_singleton] at hb
    exact fun e => hk (hb ▸ e ▸ ha)

theorem drop_sublist (k : String) (l : List (String × α)) : (drop k l).Sublist l := by
  induction l with
  | nil => simp [drop]
  | cons e r ih =>
    obtain ⟨k', v⟩ := e
    by_cases hk : k' = k
    · simp [drop, hk]
    · simpa [drop, hk] using ih

theorem drop_eq_filter {k : String} {l : List (String × α)} (h : (l.map Prod.fst).Nodup) :
    drop k l = l.filter (·.1 ≠ k) := by
  induction l with
  | nil => rfl
  | cons e r ih =>
    obtain ⟨k', v⟩ := e
    simp only [List.map_cons, List.nodup_cons] at h
    by_cases hk : k' = k
    · have hr : ∀ e ∈ r, e.1 ≠ k := by
        rintro e he rfl
        exact h.1 (hk ▸ List.mem_map_of_mem he)
      simpa [drop, hk] using (List.filter_eq_self.2 fun e he => decide_eq_true (hr e he)).symm
    · simp [drop, hk, ih h.2]

theorem dropSwap_perm_drop (k : String) (l : List (String × α)) :
    (dropSwap k l).Perm (drop k l) := by
  induction l with
  | nil => simp [dropSwap, drop]
  | cons e r ih =>
    obtain ⟨k', v⟩ := e
    by_cases hk : k' = k
    · simp only [dropSwap, drop, hk, if_true]
      cases hr : r.getLast? with
      | none => simp [List.getLast?_eq_none_iff.1 hr]
      | some last =>
        obtain ⟨ys, rfl⟩ := List.getLast?_eq_some_iff.1 hr
        simpa using (List.perm_append_comm : ([last] ++ ys).Perm (ys ++ [last]))
    · simpa [dropSwap, drop, hk] using ih

theorem nodup_drop {k : String} {l : List (String × α)}
    (h : (l.map Prod.fst).Nodup) : ((drop k l).map Prod.fst).Nodup :=
  ((drop_sublist k l).map Prod.fst).nodup h

theorem nodup_dropSwap {k : String} {l : List (String × α)}
    (h : (l.map Prod.fst).Nodup) : ((dropSwap k l).map Prod.fst).Nodup :=
  (((dropSwap_perm_drop k l).map Prod.fst).nodup_iff).2 (nodup_drop h)

theorem find?_put (k k' : String) (v : α) (l : List (String × α)) :
    find? k' (put k v l) = if k = k' then some v else find? k' l := by
  induction l with
  | nil => simp [put, find?]
  | cons e r ih =>
    obtain ⟨a, b⟩ := e
    by_cases ha : a = k
    · subst ha
      by_cases h : a = k' <;> simp [put, find?, h]
    · by_cases h : a = k'
      · subst h
        have : ¬ k = a := fun e => ha e.symm
        simp [put, find?, ha, this]
      · simp [put, find?, ha, h, ih]

theorem find?_eq_none_iff {k : String} {l : List (String × α)} :
    find? k l = none ↔ k ∉ l.map Prod.fst := by
  induction l with
  | nil => simp [find?]
  | cons e r ih =>
    obtain ⟨a, b⟩ := e
    by_cases ha : a = k
    · subst ha; simp [find?]
    · have ha' : ¬ k = a := fun e => ha e.symm
      simp only [find?, ha, if_false, List.map_cons, List.mem_cons, ha', false_or]
      exact ih

theorem mem_of_find? {k : String} {v : α} {l : List (String × α)} (h : find? k l = some v) :
    (k, v) ∈ l := by
  induction l with
  | nil => simp [find?] at h
  | cons e r ih =>
    by_cases hk : e.1 = k
    · simp only [find?, hk, if_true, Option.some.injEq] at h
      exact List.mem_cons.2 (.inl (Prod.ext hk.symm h.symm))
    · simp only [find?, hk, if_false] at h
      exact List.mem_cons_of_mem _ (ih h)

theorem find?_eq_some_iff {k : String} {v : α} {l : List (String × α)}
    (h : (l.map Prod.fst).Nodup) : find? k l = some v ↔ (k, v) ∈ l := by
  induction l with
  | nil => simp [find?]
  | cons e r ih =>
    obtain ⟨a, b⟩ := e
    simp only [List.map_cons, List.nodup_cons] at h
    by_cases ha : a = k
    · subst ha
      simp only [find?, if_true, Option.some.injEq, List.mem_cons, Prod.mk.injEq, true_and]
      refine ⟨fun e => .inl e.symm, fun e => e.elim Eq.symm fun e => ?_⟩
      exact absurd (List.mem_map_of_mem e) h.1
    · have ha' : ¬ k = a := fun e => ha e.symm
      simp only [find?, ha, if_false, List.mem_cons, Prod.mk.injEq, ha', false_and, false_or]
      exact ih h.2

theorem find?_perm {k : String} {l m : List (String × α)} (p : l.Perm m)
    (h : (l.map Prod.fst).Nodup) : find? k l = find? k m := by
  have hm : (m.map Prod.fst).Nodup := ((p.map Prod.fst).nodup_iff).1 h
  apply Option.ext
  intro v
  rw [find?_eq_some_iff h, find?_eq_some_iff hm, p.mem_iff]

theorem find?_drop {k : String} {l : List (String × α)} (h : (l.map Prod.fst).Nodup)
    (k' : String) : find? k' (drop k l) = if k = k' then none else find? k' l := by
  induction l with
  | nil => simp [drop, find?]
  | cons e r ih =>
    obtain ⟨a, b⟩ := e
    simp only [List.map_cons, List.nodup_cons] at h
    by_cases ha : a = k
    · subst ha
      by_cases hk : a = k'
      · subst hk; simpa [drop] using find?_eq_none_iff.2 h.1
      · simp [drop, find?, hk]
    · by_cases hk : a = k'
      · subst hk
        have : ¬ k = a := fun e => ha e.symm
        simp [drop, find?, ha, this]
      · simp [drop, find?, ha, hk, ih h.2]

theorem find?_append (k : String) (l m : List (String × α)) :
    find? k (l ++ m) = (find? k l).or (find? k m) := by
  induction l with
  | nil => rfl
  | cons e r ih =>
    by_cases h : e.1 = k
    · simp [find?, h]
    · simp [find?, h, ih]

theorem find?_filter {k : String} {l : List (String × α)} (p : String × α → Bool)
    (h : (l.map Prod.fst).Nodup) :
    find? k (l.filter p) = (find? k l).filter fun v => p (k, v) := by
  have hf : ((l.filter p).map Prod.fst).Nodup := (List.filter_sublist.map Prod.fst).nodup h
  apply Option.ext
  intro v
  rw [find?_eq_some_iff hf, List.mem_filter, Option.filter_eq_some_iff, find?_eq_some_iff h]

theorem find?_filter_key (k : String) (p : String → Bool) (l : List (String × α)) :
    find? k (l.filter fun e => p e.1) = if p k then find? k l else none := by
  induction l with
  | nil => simp [find?]
  | cons e r ih =>
    by_cases hk : e.1 = k
    · subst hk
      by_cases hp : p e.1 = true
      · simp [hp, find?]
      · simp [hp, ih]
    · by_cases hp : p e.1 = true
      · simp [hp, find?, hk, ih]
      · simp [hp, find?, hk, ih]

theorem find?_map_snd {β : Type} (f : α → β) (k : String) (l : List (String × α)) :
    find? k (l.map fun e => (e.1, f e.2)) = (find? k l).map f := by
  induction l with
  | nil => rfl
  | cons e r ih =>
    by_cases h : e.1 = k
    · simp [find?, h]
    · simp [find?, h, ih]

theorem find?_filterMap_snd {β : Type} (f : α → Option β) (k : String) {l : List (String × α)}
    (h : (l.map Prod.fst).Nodup) :
    find? k (l.filterMap fun e => (f e.2).map (e.1, ·)) = (find? k l).bind f := by
  induction l with
  | nil => rfl
  | cons e r ih =>
    simp only [List.map_cons, List.nodup_cons] at h
    by_cases hk : e.1 = k
    · subst hk
      have hnone : find? e.1 r = none := find?_eq_none_iff.2 h.1
      cases hf : f e.2 with
      | none => simp [find?, hf, ih h.2, hnone]
      | some b => simp [find?, hf]
    · cases hf : f e.2 with
      | none => simp [find?, hf, hk, ih h.2]
      | some b => simp [find?, hf, hk, ih h.2]

end Entries

/-! ## Maps -/

/-- A map from text keys in insertion order; no key occurs twice. -/
structure OrderedMap (α : Type) where
  entries : List (String × α)
  nodup : (entries.map Prod.fst).Nodup

namespace OrderedMap

variable {α β : Type}

theorem ext_entries {m n : OrderedMap α} (h : m.entries = n.entries) : m = n := by
  cases m; cases n; cases h; rfl

instance [DecidableEq α] : DecidableEq (OrderedMap α) := fun m n =>
  decidable_of_iff (m.entries = n.entries) ⟨ext_entries, fun h => h ▸ rfl⟩

def empty : OrderedMap α := ⟨[], by simp⟩

instance : Inhabited (OrderedMap α) := ⟨empty⟩

def isEmpty (m : OrderedMap α) : Bool := m.entries.isEmpty

def size (m : OrderedMap α) : Nat := m.entries.length

def keys (m : OrderedMap α) : List String := m.entries.map Prod.fst

def values (m : OrderedMap α) : List α := m.entries.map Prod.snd

def get? (m : OrderedMap α) (k : String) : Option α := Entries.find? k m.entries

def contains (m : OrderedMap α) (k : String) : Bool := (m.get? k).isSome

/-- Overwriting keeps the key's place; a new key goes to the end. -/
def insert (m : OrderedMap α) (k : String) (v : α) : OrderedMap α :=
  ⟨Entries.put k v m.entries, Entries.nodup_put m.nodup⟩

/-- Removal that keeps the order of the rest. -/
def erase (m : OrderedMap α) (k : String) : OrderedMap α :=
  ⟨Entries.drop k m.entries, Entries.nodup_drop m.nodup⟩

/-- Removal that moves the last entry into the gap. -/
def eraseSwap (m : OrderedMap α) (k : String) : OrderedMap α :=
  ⟨Entries.dropSwap k m.entries, Entries.nodup_dropSwap m.nodup⟩

/-- Writes all pairs, in order, over `m`. -/
def insertAll (m : OrderedMap α) (pairs : List (String × α)) : OrderedMap α :=
  pairs.foldl (fun m e => m.insert e.1 e.2) m

/-- All entries of `n` written over `m`. -/
def merge (m n : OrderedMap α) : OrderedMap α := m.insertAll n.entries

/-- The last value of a repeated key, at the key's first place. -/
def ofList (pairs : List (String × α)) : OrderedMap α := empty.insertAll pairs

/-- The entries that satisfy `p`, in order. -/
def filter (p : String → α → Bool) (m : OrderedMap α) : OrderedMap α :=
  ⟨m.entries.filter fun e => p e.1 e.2, (List.filter_sublist.map Prod.fst).nodup m.nodup⟩

/-- Every value changed, every key kept. -/
def mapValues (f : α → β) (m : OrderedMap α) : OrderedMap β :=
  ⟨m.entries.map fun e => (e.1, f e.2), by
    have h : ∀ l : List (String × α),
        (l.map fun e => (e.1, f e.2)).map Prod.fst = l.map Prod.fst := by
      intro l; simp [List.map_map, Function.comp_def]
    rw [h]; exact m.nodup⟩

@[simp] theorem get?_empty (k : String) : (empty : OrderedMap α).get? k = none := rfl

theorem get?_insert (m : OrderedMap α) (k k' : String) (v : α) :
    (m.insert k v).get? k' = if k = k' then some v else m.get? k' :=
  Entries.find?_put k k' v m.entries

theorem get?_erase (m : OrderedMap α) (k k' : String) :
    (m.erase k).get? k' = if k = k' then none else m.get? k' :=
  Entries.find?_drop m.nodup k'

theorem get?_eraseSwap (m : OrderedMap α) (k k' : String) :
    (m.eraseSwap k).get? k' = if k = k' then none else m.get? k' := by
  have h := Entries.find?_perm (k := k') (Entries.dropSwap_perm_drop k m.entries)
    (Entries.nodup_dropSwap m.nodup)
  exact h.trans (Entries.find?_drop m.nodup k')

theorem get?_eq_some_iff {m : OrderedMap α} {k : String} {v : α} :
    m.get? k = some v ↔ (k, v) ∈ m.entries := Entries.find?_eq_some_iff m.nodup

theorem get?_eq_none_iff {m : OrderedMap α} {k : String} : m.get? k = none ↔ k ∉ m.keys :=
  Entries.find?_eq_none_iff

theorem keys_insert_of_mem {m : OrderedMap α} {k : String} {v : α} (h : k ∈ m.keys) :
    (m.insert k v).keys = m.keys := Entries.map_fst_put_of_mem h

theorem entries_insert_of_not_mem {m : OrderedMap α} {k : String} {v : α} (h : k ∉ m.keys) :
    (m.insert k v).entries = m.entries ++ [(k, v)] := Entries.put_of_not_mem h

theorem entries_erase (m : OrderedMap α) (k : String) :
    (m.erase k).entries = m.entries.filter (·.1 ≠ k) := Entries.drop_eq_filter m.nodup

theorem entries_insertAll {m : OrderedMap α} {l : List (String × α)}
    (h : ((m.entries ++ l).map Prod.fst).Nodup) : (m.insertAll l).entries = m.entries ++ l := by
  induction l generalizing m with
  | nil => exact (List.append_nil _).symm
  | cons e r ih =>
    have hnew : e.1 ∉ m.keys := by
      rw [List.map_append, List.map_cons, List.nodup_append] at h
      exact fun hmem => h.2.2 e.1 hmem e.1 (List.mem_cons_self ..) rfl
    have hentries : (m.insert e.1 e.2).entries = m.entries ++ [e] := entries_insert_of_not_mem hnew
    have hassoc : m.entries ++ [e] ++ r = m.entries ++ e :: r := by simp
    have hstep : m.insertAll (e :: r) = (m.insert e.1 e.2).insertAll r := rfl
    rw [hstep, ih (by rw [hentries, hassoc]; exact h), hentries, hassoc]

/-- Pairs without a repeated key are kept as they are. -/
theorem entries_ofList {l : List (String × α)} (h : (l.map Prod.fst).Nodup) :
    (ofList l).entries = l := entries_insertAll h

theorem get?_insertAll (m : OrderedMap α) (l : List (String × α)) (k : String) :
    (m.insertAll l).get? k = (Entries.find? k l.reverse).or (m.get? k) := by
  induction l generalizing m with
  | nil => rfl
  | cons e r ih =>
    have hstep : m.insertAll (e :: r) = (m.insert e.1 e.2).insertAll r := rfl
    rw [hstep, ih, get?_insert, List.reverse_cons, Entries.find?_append, Option.or_assoc]
    by_cases h : e.1 = k <;> simp [Entries.find?, h]

theorem get?_ofList (l : List (String × α)) (k : String) :
    (ofList l).get? k = Entries.find? k l.reverse := by
  rw [ofList, get?_insertAll, get?_empty, Option.or_none]

theorem get?_merge (m n : OrderedMap α) (k : String) :
    (m.merge n).get? k = (n.get? k).or (m.get? k) := by
  have hrev : (n.entries.reverse.map Prod.fst).Nodup :=
    (((List.reverse_perm n.entries).map Prod.fst).nodup_iff).2 n.nodup
  rw [merge, get?_insertAll, Entries.find?_perm (List.reverse_perm _) hrev]
  rfl

theorem get?_filter (m : OrderedMap α) (p : String → α → Bool) (k : String) :
    (m.filter p).get? k = (m.get? k).filter (p k) :=
  Entries.find?_filter (fun e => p e.1 e.2) m.nodup

theorem get?_mapValues (m : OrderedMap α) (f : α → β) (k : String) :
    (m.mapValues f).get? k = (m.get? k).map f := Entries.find?_map_snd f k m.entries

/-! ## Equality up to order -/

/-- Two maps with the same values under the same keys, in whatever order. -/
def SameAs (m n : OrderedMap α) : Prop := ∀ k, m.get? k = n.get? k

namespace SameAs

theorem refl (m : OrderedMap α) : m.SameAs m := fun _ => rfl

theorem symm {m n : OrderedMap α} (h : m.SameAs n) : n.SameAs m := fun k => (h k).symm

theorem trans {l m n : OrderedMap α} (h : l.SameAs m) (h' : m.SameAs n) : l.SameAs n :=
  fun k => (h k).trans (h' k)

end SameAs

end OrderedMap

end TemplateStyles
