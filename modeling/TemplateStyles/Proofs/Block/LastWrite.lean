import Mathlib.Data.List.Forall2
import Mathlib.Data.List.Induction
import TemplateStyles.Block.Rule
/-!
# What a row of writes leaves

One write keeps the evaluated properties that it does not replace, in their order, and puts its own
behind them (`dynamicEntries_apply`); its fixed values go over those that are there
(`get?_static_apply`). So no property is ever on both sides (`ofWrites_partitioned`), and an
evaluated property has the value of the last write that set it (`last_write_of_mem`).

Two rows of writes may agree but for this: where one leaves a value to be evaluated, the other has
the value itself. Writing both rows step by step keeps the rules alike (`Agrees.apply`): the second
rule has, as fixed values, what the first one has on both sides together (`agrees_ofWrites`).
-/
namespace TemplateStyles

namespace Write

/-- The fixed values that a write leaves. -/
def fixed : Write → List (String × StyleValue)
  | .dynamic _ _ => []
  | .static key value => [(key, value)]
  | .expanded _ entries => entries

/-- The value that a write leaves for each render. -/
def evaluated : Write → List (String × StyleValue)
  | .dynamic key value => [(key, value)]
  | .static _ _ | .expanded _ _ => []

/-- The properties that a write sets. -/
def keys (w : Write) : List String := (w.fixed ++ w.evaluated).map Prod.fst

/-- The properties that are not evaluated as before: beside those that are set, the name of an
expanded shorthand. -/
def replaced : Write → List String
  | .dynamic key _ | .static key _ => [key]
  | .expanded key entries => key :: entries.map Prod.fst

theorem mem_replaced_of_mem_keys {w : Write} {k : String} (h : k ∈ w.keys) : k ∈ w.replaced := by
  cases w with
  | dynamic key value => simpa [keys, fixed, evaluated, replaced] using h
  | static key value => simpa [keys, fixed, evaluated, replaced] using h
  | expanded key entries =>
    simp only [keys, fixed, evaluated, List.append_nil] at h
    exact List.mem_cons_of_mem _ h

theorem mem_keys_of_mem_evaluated {w : Write} {e : String × StyleValue} (h : e ∈ w.evaluated) :
    e.1 ∈ w.keys :=
  List.mem_map_of_mem (List.mem_append_right _ h)

theorem eq_dynamic_of_mem_evaluated {w : Write} {e : String × StyleValue} (h : e ∈ w.evaluated) :
    w = .dynamic e.1 e.2 := by
  cases w with
  | dynamic key value => rw [List.mem_singleton.1 h]
  | static key value => simp [evaluated] at h
  | expanded key entries => simp [evaluated] at h

end Write

namespace StyleRule

/-! ## One write -/

theorem dynamicEntries_dropDynamic (k : String) (r : StyleRule) :
    (r.dropDynamic k).dynamicEntries = r.dynamicEntries.filter (·.1 ≠ k) := by
  unfold dropDynamic dynamicEntries
  induction r.dynamic with
  | nil => rfl
  | cons group rest ih =>
    rw [List.flatMap_cons, List.filter_append, ← ih, ← OrderedMap.entries_erase, List.map_cons]
    by_cases hg : (group.erase k).isEmpty = true
    · have hnil : (group.erase k).entries = [] := List.isEmpty_iff.1 hg
      rw [List.filter_cons_of_neg (by simp [hg]), hnil, List.nil_append]
    · rw [List.filter_cons_of_pos (by simpa using hg), List.flatMap_cons]

theorem dynamicEntries_putStatic (k : String) (v : StyleValue) (r : StyleRule) :
    (r.putStatic k v).dynamicEntries = r.dynamicEntries.filter (·.1 ≠ k) :=
  dynamicEntries_dropDynamic k r

theorem dynamicEntries_putDynamic (k : String) (v : StyleValue) (r : StyleRule) :
    (r.putDynamic k v).dynamicEntries = r.dynamicEntries.filter (·.1 ≠ k) ++ [(k, v)] := by
  rw [← dynamicEntries_dropDynamic]
  unfold putDynamic dynamicEntries
  rw [List.flatMap_append, List.flatMap_singleton]
  rfl

theorem static_foldl_putStatic (entries : List (String × StyleValue)) (r : StyleRule) :
    (entries.foldl (fun r e => r.putStatic e.1 e.2) r).static = r.static.insertAll entries := by
  induction entries generalizing r with
  | nil => rfl
  | cons e rest ih => rw [List.foldl_cons, ih]; rfl

theorem dynamicEntries_foldl_putStatic (entries : List (String × StyleValue)) (r : StyleRule) :
    (entries.foldl (fun r e => r.putStatic e.1 e.2) r).dynamicEntries =
      r.dynamicEntries.filter (·.1 ∉ entries.map Prod.fst) := by
  induction entries generalizing r with
  | nil => exact (List.filter_eq_self.2 (by simp)).symm
  | cons e rest ih =>
    rw [List.foldl_cons, ih, dynamicEntries_putStatic, List.filter_filter]
    refine List.filter_congr fun x _ => ?_
    simp only [List.map_cons, List.mem_cons, not_or, ne_eq, Bool.decide_and, Bool.and_comm]

/-- The evaluated properties after a write. -/
theorem dynamicEntries_apply (r : StyleRule) (w : Write) :
    (r.apply w).dynamicEntries =
      r.dynamicEntries.filter (·.1 ∉ w.replaced) ++ w.evaluated := by
  cases w with
  | dynamic key value =>
    simp only [apply, dynamicEntries_putDynamic, Write.replaced, Write.evaluated,
      List.mem_singleton, ne_eq]
  | static key value =>
    simp only [apply, dynamicEntries_putStatic, Write.replaced, Write.evaluated,
      List.mem_singleton, ne_eq, List.append_nil]
  | expanded key entries =>
    simp only [apply, dynamicEntries_foldl_putStatic, dynamicEntries_dropDynamic,
      List.filter_filter, Write.replaced, Write.evaluated, List.append_nil, List.mem_cons, not_or,
      ne_eq, Bool.decide_and, Bool.and_comm]

/-- The fixed values after a write. -/
theorem get?_static_apply (r : StyleRule) (w : Write) (k : String) :
    (r.apply w).static.get? k = (Entries.find? k w.fixed.reverse).or
      (if k ∈ w.evaluated.map Prod.fst then none else r.static.get? k) := by
  cases w with
  | dynamic key value =>
    have hrule : (r.apply (.dynamic key value)).static = r.static.erase key := rfl
    rw [hrule, OrderedMap.get?_erase]
    simp [Write.fixed, Write.evaluated, Entries.find?, eq_comm]
  | static key value =>
    have hrule : (r.apply (.static key value)).static = r.static.insert key value := rfl
    rw [hrule, OrderedMap.get?_insert]
    by_cases hk : key = k <;> simp [Write.fixed, Write.evaluated, Entries.find?, hk]
  | expanded key entries =>
    have hrule : (r.apply (.expanded key entries)).static = r.static.insertAll entries :=
      static_foldl_putStatic entries _
    rw [hrule, OrderedMap.get?_insertAll]
    simp [Write.fixed, Write.evaluated]

/-! ## A row of writes -/

/-- The rule that a row of writes leaves. -/
def ofWrites (writes : List Write) : StyleRule := writes.foldl apply .empty

theorem ofWrites_append_singleton (writes : List Write) (w : Write) :
    ofWrites (writes ++ [w]) = (ofWrites writes).apply w := by
  rw [ofWrites, List.foldl_append, List.foldl_cons, List.foldl_nil, ofWrites]

/-- Every property is either fixed or evaluated, and evaluated only once. -/
structure Partitioned (r : StyleRule) : Prop where
  nodup : (r.dynamicEntries.map Prod.fst).Nodup
  disjoint : ∀ e ∈ r.dynamicEntries, r.static.get? e.1 = none

theorem Partitioned.apply {r : StyleRule} (h : r.Partitioned) (w : Write) :
    (r.apply w).Partitioned := by
  constructor
  · rw [dynamicEntries_apply, List.map_append, List.nodup_append]
    refine ⟨(List.filter_sublist.map Prod.fst).nodup h.nodup, ?_, ?_⟩
    · cases w <;> simp [Write.evaluated]
    · intro k hk k' hk' hkk
      obtain ⟨e, he, rfl⟩ := List.mem_map.1 hk
      obtain ⟨e', he', rfl⟩ := List.mem_map.1 hk'
      have hold : e.1 ∉ w.replaced := of_decide_eq_true (List.mem_filter.1 he).2
      exact hold (hkk ▸ Write.mem_replaced_of_mem_keys (Write.mem_keys_of_mem_evaluated he'))
  · intro e he
    rw [dynamicEntries_apply, List.mem_append] at he
    rw [get?_static_apply, Option.or_eq_none_iff]
    rcases he with he | he
    · obtain ⟨hmem, hold⟩ := List.mem_filter.1 he
      have hkeys : e.1 ∉ w.keys := fun hk =>
        of_decide_eq_true hold (Write.mem_replaced_of_mem_keys hk)
      simp only [Write.keys, List.map_append, List.mem_append, not_or] at hkeys
      refine ⟨Entries.find?_eq_none_iff.2 ?_, ?_⟩
      · rw [List.map_reverse, List.mem_reverse]
        exact hkeys.1
      · rw [if_neg hkeys.2, h.disjoint e hmem]
    · rw [Write.eq_dynamic_of_mem_evaluated he]
      simp [Write.fixed, Write.evaluated, Entries.find?]

/-- **No property is on both sides**, whatever is written in whatever order. -/
theorem ofWrites_partitioned (writes : List Write) : (ofWrites writes).Partitioned := by
  induction writes using List.reverseRecOn with
  | nil => constructor <;> simp [ofWrites, empty, dynamicEntries]
  | append_singleton writes w ih => rw [ofWrites_append_singleton]; exact ih.apply w

/-- **The last write counts**: an evaluated property has its value from the last write that set
it. -/
theorem last_write_of_mem {writes : List Write} {e : String × StyleValue}
    (h : e ∈ (ofWrites writes).dynamicEntries) :
    (writes.filter (e.1 ∈ ·.keys)).getLast? = some (.dynamic e.1 e.2) := by
  induction writes using List.reverseRecOn with
  | nil => simp [ofWrites, empty, dynamicEntries] at h
  | append_singleton writes w ih =>
    rw [ofWrites_append_singleton, dynamicEntries_apply, List.mem_append] at h
    rw [List.filter_append]
    rcases h with h | h
    · obtain ⟨hmem, hold⟩ := List.mem_filter.1 h
      have hkeys : e.1 ∉ w.keys := fun hk =>
        of_decide_eq_true hold (Write.mem_replaced_of_mem_keys hk)
      rw [List.filter_cons_of_neg (by simpa using hkeys), List.filter_nil, List.append_nil, ih hmem]
    · rw [List.filter_cons_of_pos (by simpa using Write.mem_keys_of_mem_evaluated h),
        List.filter_nil, List.getLast?_append, List.getLast?_singleton, Option.some_or,
        Write.eq_dynamic_of_mem_evaluated h]

theorem mem_evaluated_of_mem {writes : List Write} {e : String × StyleValue}
    (h : e ∈ (ofWrites writes).dynamicEntries) : ∃ w ∈ writes, e ∈ w.evaluated := by
  have hlast := List.mem_of_getLast? (last_write_of_mem h)
  exact ⟨_, (List.mem_filter.1 hlast).1, by simp [Write.evaluated]⟩

/-- An evaluated value stays if nothing behind it replaces it. -/
theorem mem_dynamicEntries_ofWrites {front back : List Write} {w : Write}
    {e : String × StyleValue} (he : e ∈ w.evaluated) (h : ∀ w' ∈ back, e.1 ∉ w'.replaced) :
    e ∈ (ofWrites (front ++ w :: back)).dynamicEntries := by
  induction back using List.reverseRecOn with
  | nil =>
    rw [ofWrites_append_singleton, dynamicEntries_apply]
    exact List.mem_append_right _ he
  | append_singleton back w' ih =>
    have hmem := ih fun w'' hw => h w'' (List.mem_append_left _ hw)
    rw [← List.cons_append, ← List.append_assoc, ofWrites_append_singleton, dynamicEntries_apply]
    exact List.mem_append_left _ (List.mem_filter.2 ⟨hmem, by simpa using h w' (by simp)⟩)

/-- Every fixed value was written as one. -/
theorem mem_fixed_of_get?_static {writes : List Write} {k : String} {v : StyleValue}
    (h : (ofWrites writes).static.get? k = some v) : ∃ w ∈ writes, (k, v) ∈ w.fixed := by
  induction writes using List.reverseRecOn with
  | nil => simp [ofWrites, empty] at h
  | append_singleton writes w ih =>
    rw [ofWrites_append_singleton, get?_static_apply, Option.or_eq_some_iff] at h
    rcases h with h | ⟨-, h⟩
    · exact ⟨w, by simp, List.mem_reverse.1 (Entries.mem_of_find? h)⟩
    · split at h
      · simp at h
      · obtain ⟨w', hw', hv⟩ := ih h
        exact ⟨w', List.mem_append_left _ hw', hv⟩

/-! ## Rows of writes of one property -/

variable {α : Type} {f : α → Write} {k : String}

/-- Writes that do not set a property are of no account for its fixed value. -/
theorem get?_static_ofWrites_filter {p : α → Bool} {l : List α}
    (h : ∀ a ∈ l, p a = false → k ∉ (f a).keys) :
    (ofWrites (l.map f)).static.get? k = (ofWrites ((l.filter p).map f)).static.get? k := by
  induction l using List.reverseRecOn with
  | nil => rfl
  | append_singleton l a ih =>
    have hold := ih fun a ha => h a (by simp [ha])
    rw [List.map_append, List.map_singleton, ofWrites_append_singleton, get?_static_apply, hold,
      List.filter_append]
    cases ha : p a with
    | true =>
      rw [List.filter_cons_of_pos ha, List.filter_nil, List.map_append, List.map_singleton,
        ofWrites_append_singleton, get?_static_apply]
    | false =>
      have hkeys : k ∉ (f a).keys := h a (by simp) ha
      rw [Write.keys, List.map_append, List.mem_append, not_or] at hkeys
      have hnone : Entries.find? k (f a).fixed.reverse = none := by
        rw [Entries.find?_eq_none_iff, List.map_reverse, List.mem_reverse]
        exact hkeys.1
      rw [List.filter_cons_of_neg (by simp [ha]), List.filter_nil, List.append_nil, hnone,
        Option.none_or, if_neg hkeys.2]

/-- A property that no write evaluates has the last value that was fixed for it. -/
theorem get?_static_ofWrites_fixed {g : α → Option StyleValue} {l : List α}
    (h : ∀ a ∈ l, Entries.find? k (f a).fixed.reverse = g a ∧ (f a).evaluated = []) :
    (ofWrites (l.map f)).static.get? k = l.reverse.findSome? g := by
  induction l using List.reverseRecOn with
  | nil => rfl
  | append_singleton l a ih =>
    obtain ⟨hfixed, hevaluated⟩ := h a (by simp)
    rw [List.map_append, List.map_singleton, ofWrites_append_singleton, get?_static_apply,
      hfixed, hevaluated, ih fun a ha => h a (by simp [ha]), List.reverse_append,
      List.reverse_singleton, List.singleton_append, List.findSome?_cons]
    cases g a <;> rfl

end StyleRule

/-! ## Filling in evaluated values -/

/-- The second write is the first one with its value filled in. -/
inductive Write.FilledBy (fill : StyleValue → Option Json) : Write → Write → Prop where
  | fixed (key : String) (value : StyleValue) :
    FilledBy fill (.static key value) (.static key value)
  | evaluated (key : String) {value filled : StyleValue} (h : fill value = some filled.toJson) :
    FilledBy fill (.dynamic key value) (.static key filled)

namespace StyleRule

/-- The value of a property on either side of a rule. -/
def value? (fill : StyleValue → Option Json) (r : StyleRule) (k : String) : Option Json :=
  ((r.static.get? k).map StyleValue.toJson).or ((Entries.find? k r.dynamicEntries).bind fill)

/-- The second rule has fixed what the first one has on both sides. -/
def Agrees (fill : StyleValue → Option Json) (r s : StyleRule) : Prop :=
  ∀ k, r.value? fill k = (s.static.get? k).map StyleValue.toJson

variable {fill : StyleValue → Option Json} {r s : StyleRule}

theorem find?_dynamicEntries_apply (r : StyleRule) (w : Write) (k : String) :
    Entries.find? k (r.apply w).dynamicEntries =
      (if k ∈ w.replaced then none else Entries.find? k r.dynamicEntries).or
        (Entries.find? k w.evaluated) := by
  rw [dynamicEntries_apply, Entries.find?_append,
    Entries.find?_filter_key k (fun k => decide (k ∉ w.replaced))]
  by_cases hk : k ∈ w.replaced <;> simp [hk]

theorem Agrees.apply (h : Agrees fill r s) {w w' : Write} (hw : Write.FilledBy fill w w') :
    Agrees fill (r.apply w) (s.apply w') := by
  intro k
  have hk := h k
  unfold value? at hk ⊢
  rw [find?_dynamicEntries_apply, get?_static_apply, get?_static_apply]
  cases hw with
  | fixed key value =>
    by_cases hkey : key = k
    · simp [Write.fixed, Entries.find?, hkey]
    · simp [Write.fixed, Write.evaluated, Write.replaced, Entries.find?, hkey, Ne.symm hkey, ← hk]
  | evaluated key hfill =>
    by_cases hkey : key = k
    · simp [Write.fixed, Write.evaluated, Write.replaced, Entries.find?, hkey, hfill]
    · simp [Write.fixed, Write.evaluated, Write.replaced, Entries.find?, hkey, Ne.symm hkey, ← hk]

/-- **Filling in commutes with writing.** -/
theorem agrees_ofWrites {ws ws' : List Write} (h : List.Forall₂ (Write.FilledBy fill) ws ws') :
    Agrees fill (ofWrites ws) (ofWrites ws') :=
  List.rel_foldl (fun _ _ hrule _ _ hw => hrule.apply hw) (fun _ => rfl) h

end StyleRule

end TemplateStyles
