import Mathlib.Data.List.Basic
import TemplateStyles.OrderedMap
/-!
# Merging maps

A merged map has the keys of the first map in their order, and behind them those that only the
second map has (`keys_merge`). A map is known from its keys in order and from what it gives for
each key (`ext_get?`), so maps with `merge` and `empty` form a monoid, down to the order of keys:
`merge_assoc`, `merge_empty` and `empty_merge`.
-/
namespace TemplateStyles.OrderedMap

variable {α : Type}

/-! ## Keys and values make a map -/

theorem entries_eq_filterMap (m : OrderedMap α) :
    m.entries = m.keys.filterMap fun k => (m.get? k).map (k, ·) := by
  have hself : ∀ e ∈ m.entries, (m.get? e.1).map (e.1, ·) = some e := by
    intro e he
    rw [get?_eq_some_iff.2 he, Option.map_some]
  rw [keys, List.filterMap_map]
  exact List.filterMap_some.symm.trans (List.filterMap_congr hself).symm

/-- **Two maps with the same keys in order and the same values are the same.** -/
theorem ext_get? {m n : OrderedMap α} (hkeys : m.keys = n.keys)
    (hget : ∀ k, m.get? k = n.get? k) : m = n := by
  apply ext_entries
  rw [m.entries_eq_filterMap, n.entries_eq_filterMap, hkeys]
  simp only [hget]

/-! ## Keys of a merged map -/

theorem keys_insert (m : OrderedMap α) (k : String) (v : α) :
    (m.insert k v).keys = if k ∈ m.keys then m.keys else m.keys ++ [k] := by
  split
  · rename_i hk
    exact keys_insert_of_mem hk
  · rename_i hk
    rw [keys, entries_insert_of_not_mem hk, List.map_append, ← keys]
    rfl

theorem mem_keys_insert {m : OrderedMap α} {k k' : String} {v : α} :
    k' ∈ (m.insert k v).keys ↔ k' = k ∨ k' ∈ m.keys := by
  rw [keys_insert]
  split
  · rename_i hk
    exact ⟨.inr, fun h => h.elim (fun heq => heq ▸ hk) id⟩
  · rw [List.mem_append, List.mem_singleton, or_comm]

theorem keys_erase (m : OrderedMap α) (k : String) :
    (m.erase k).keys = m.keys.filter (· ≠ k) := by
  rw [keys, entries_erase, keys, List.filter_map]
  rfl

theorem keys_filter (m : OrderedMap α) (p : String → Bool) :
    (m.filter fun k _ => p k).keys = m.keys.filter p := by
  rw [keys, filter, keys, List.filter_map]
  rfl

theorem dropSwap_cons (k : String) (e : String × α) (l : List (String × α)) :
    Entries.dropSwap k (e :: l) =
      if e.1 = k then l.getLast?.toList ++ l.dropLast else e :: Entries.dropSwap k l := by
  rw [Entries.dropSwap]
  refine if_congr Iff.rfl ?_ rfl
  cases hlast : l.getLast? with
  | none => simp [List.getLast?_eq_none_iff.1 hlast]
  | some last => rfl

/-- The order in which a removal leaves the keys depends on the keys alone. -/
theorem keys_eraseSwap_congr {m n : OrderedMap α} (h : m.keys = n.keys) (k : String) :
    (m.eraseSwap k).keys = (n.eraseSwap k).keys := by
  have hentries : ∀ l l' : List (String × α), l.map Prod.fst = l'.map Prod.fst →
      (Entries.dropSwap k l).map Prod.fst = (Entries.dropSwap k l').map Prod.fst := by
    intro l
    induction l with
    | nil =>
      intro l' hl
      rw [List.map_eq_nil_iff.1 hl.symm]
    | cons e l ih =>
      intro l' hl
      cases l' with
      | nil => simp at hl
      | cons e' l' =>
        obtain ⟨he, hl⟩ := List.cons.inj hl
        rw [dropSwap_cons, dropSwap_cons, ← he]
        by_cases hk : e.1 = k
        · rw [if_pos hk, if_pos hk, List.map_append, List.map_append, ← Option.toList_map,
            ← Option.toList_map, ← List.getLast?_map, ← List.getLast?_map, List.map_dropLast,
            List.map_dropLast, hl]
        · rw [if_neg hk, if_neg hk, List.map_cons, List.map_cons, ih l' hl, he]
  exact hentries m.entries n.entries h

/-- Pairs without a repeated key add the keys that are new. -/
theorem keys_insertAll {l : List (String × α)} (h : (l.map Prod.fst).Nodup) (m : OrderedMap α) :
    (m.insertAll l).keys = m.keys ++ (l.map Prod.fst).filter (· ∉ m.keys) := by
  induction l generalizing m with
  | nil => exact (List.append_nil _).symm
  | cons e l ih =>
    rw [List.map_cons, List.nodup_cons] at h
    have hstep : m.insertAll (e :: l) = (m.insert e.1 e.2).insertAll l := rfl
    rw [hstep, ih h.2, keys_insert, List.map_cons]
    by_cases he : e.1 ∈ m.keys
    · rw [if_pos he, List.filter_cons_of_neg (by simpa using he)]
    · -- the new key is none of those that follow
      have hrest : (l.map Prod.fst).filter (· ∉ m.keys ++ [e.1]) =
          (l.map Prod.fst).filter (· ∉ m.keys) := by
        refine List.filter_congr fun k hk => ?_
        have hne : k ≠ e.1 := fun heq => h.1 (heq ▸ hk)
        simp [hne]
      rw [if_neg he, hrest, List.filter_cons_of_pos (by simpa using he), List.append_assoc]
      rfl

theorem keys_merge (m n : OrderedMap α) :
    (m.merge n).keys = m.keys ++ n.keys.filter (· ∉ m.keys) := keys_insertAll n.nodup m

/-! ## The monoid of maps -/

@[simp]
theorem merge_empty (m : OrderedMap α) : m.merge empty = m := rfl

@[simp]
theorem empty_merge (m : OrderedMap α) : empty.merge m = m := by
  refine ext_entries (entries_ofList m.nodup)

/-- **Merging is associative**, order included. -/
theorem merge_assoc (l m n : OrderedMap α) : (l.merge m).merge n = l.merge (m.merge n) := by
  refine ext_get? ?_ fun k => ?_
  · rw [keys_merge, keys_merge, keys_merge, keys_merge, List.append_assoc, List.filter_append,
      List.filter_filter]
    congr 2
    refine List.filter_congr fun k _ => ?_
    by_cases hl : k ∈ l.keys <;> simp [hl]
  · rw [get?_merge, get?_merge, get?_merge, get?_merge, Option.or_assoc]

end TemplateStyles.OrderedMap
