import Mathlib.Order.Bounds.Basic
import TemplateStyles.Proofs.Block.Shorthand
import TemplateStyles.Proofs.OrderedMap.Merging
/-!
# The timeline of a block

What the declarations of a block do, one property after the other. Main result
`timeline_ofText`: each property of a rule has its value from the last write of this property, the
evaluated properties stand in the order of these last writes, and the fixed ones in the order of
their first writes since they were last evaluated.
-/
namespace TemplateStyles

/-- What happens to one property. -/
inductive Event where
  /-- The property is written with a fixed value. -/
  | fixed (property : String) (value : StyleValue)
  /-- The property is written with a value that is evaluated. -/
  | evaluated (property : String) (value : StyleValue)
  /-- A shorthand of this name is expanded. -/
  | expanded (property : String)

namespace Event

/-- The property that is written. -/
def property? : Event → Option String
  | fixed property _ | evaluated property _ => some property
  | expanded _ => none

end Event

/-- What a declaration does, in order. -/
def Declaration.events (d : Declaration) : List Event :=
  if Marker.occursIn d.value then [.evaluated d.canonical (.ofText d.value)]
  else match d.expansion? with
    | some entries => .expanded d.canonical :: entries.map fun e => .fixed e.1 e.2
    | none => [.fixed d.canonical (.ofText d.value)]

/-- What the declarations of a block do, in order. -/
def Block.timeline (css : String) : List Event := (declarations css).flatMap Declaration.events

namespace Timeline

/-! ## Moments in a row of events -/

variable {events : List Event} {e : Event} {k : String} {i : Nat}

/-- The moments at which a property is written. -/
def writes (events : List Event) (k : String) : Set Nat :=
  {i | ∃ e, events[i]? = some e ∧ e.property? = some k}

/-- The moments at which a property is written with a fixed value and after which it is not written
with an evaluated one. -/
def fixings (events : List Event) (k : String) : Set Nat :=
  {i | (∃ v, events[i]? = some (.fixed k v)) ∧ ∀ j v, events[j]? = some (.evaluated k v) → j < i}

/-- The last event that writes a property. -/
def LastWrite (events : List Event) (k : String) (e : Event) : Prop :=
  ∃ i, IsGreatest (writes events k) i ∧ events[i]? = some e

/-- The last write of a property leaves a value to be evaluated, and no shorthand of the property's
name is expanded after it. -/
def Stands (events : List Event) (k : String) (v : StyleValue) : Prop :=
  ∃ i, IsGreatest (writes events k) i ∧ events[i]? = some (.evaluated k v) ∧
    ∀ j, events[j]? = some (.expanded k) → j < i

/-- One property has its moment before another one. -/
def Before (IsMoment : String → Nat → Prop) (k k' : String) : Prop :=
  ∃ i j, IsMoment k i ∧ IsMoment k' j ∧ i < j

theorem pairwise_before_congr {IsMoment IsMoment' : String → Nat → Prop} {keys : List String}
    (h : keys.Pairwise (Before IsMoment)) (hsame : ∀ k ∈ keys, ∀ i, IsMoment k i → IsMoment' k i) :
    keys.Pairwise (Before IsMoment') := by
  refine h.imp_of_mem ?_
  rintro k k' hk hk' ⟨i, j, hi, hj, hlt⟩
  exact ⟨i, j, hsame k hk i hi, hsame k' hk' j hj, hlt⟩

/-- A property may be put last if its moment is later than those of all others. -/
theorem pairwise_before_append {IsMoment : String → Nat → Prop} {keys : List String} {n : Nat}
    (h : keys.Pairwise (Before IsMoment)) (hearlier : ∀ k ∈ keys, ∃ i, IsMoment k i ∧ i < n)
    (hlast : IsMoment k n) : (keys ++ [k]).Pairwise (Before IsMoment) := by
  refine List.pairwise_append.2 ⟨h, List.pairwise_singleton .., fun k' hk' k'' hk'' => ?_⟩
  obtain ⟨i, hi, hlt⟩ := hearlier k' hk'
  exact ⟨i, n, hi, List.mem_singleton.1 hk'' ▸ hlast, hlt⟩

theorem getElem?_append_singleton_iff {e' : Event} :
    (events ++ [e])[i]? = some e' ↔ events[i]? = some e' ∨ i = events.length ∧ e' = e := by
  rcases Nat.lt_trichotomy i events.length with h | rfl | h
  · rw [List.getElem?_append_left h]
    simp [h.ne]
  · simp [eq_comm]
  · rw [List.getElem?_eq_none (by simp; omega), List.getElem?_eq_none h.le]
    simp [h.ne']

theorem lt_length_of_getElem? {e' : Event} (h : events[i]? = some e') : i < events.length :=
  (List.getElem?_eq_some_iff.1 h).1

theorem lt_length_of_mem_writes (h : i ∈ writes events k) : i < events.length := by
  obtain ⟨e, he, -⟩ := h
  exact lt_length_of_getElem? he

theorem lt_length_of_mem_fixings (h : i ∈ fixings events k) : i < events.length := by
  obtain ⟨⟨v, hv⟩, -⟩ := h
  exact lt_length_of_getElem? hv

/-! ## One event more -/

theorem mem_writes_append_singleton : i ∈ writes (events ++ [e]) k ↔
    i ∈ writes events k ∨ i = events.length ∧ e.property? = some k := by
  simp only [writes, Set.mem_ofPred_eq, getElem?_append_singleton_iff, or_and_right, exists_or]
  refine or_congr_right ⟨?_, ?_⟩
  · rintro ⟨e', ⟨hi, rfl⟩, hk⟩
    exact ⟨hi, hk⟩
  · rintro ⟨hi, hk⟩
    exact ⟨e, ⟨hi, rfl⟩, hk⟩

/-- An event that writes a property is its last write. -/
theorem isGreatest_writes_of_eq (h : e.property? = some k) :
    IsGreatest (writes (events ++ [e]) k) i ↔ i = events.length := by
  have hlast : IsGreatest (writes (events ++ [e]) k) events.length := by
    refine ⟨mem_writes_append_singleton.2 (.inr ⟨rfl, h⟩), fun j hj => ?_⟩
    rcases mem_writes_append_singleton.1 hj with hj | ⟨rfl, -⟩
    · exact (lt_length_of_mem_writes hj).le
    · exact le_rfl
  exact ⟨fun hi => hi.unique hlast, fun hi => hi ▸ hlast⟩

/-- Any other event leaves its last write as it is. -/
theorem writes_of_ne (h : e.property? ≠ some k) : writes (events ++ [e]) k = writes events k := by
  ext i
  rw [mem_writes_append_singleton]
  simp [h]

theorem lastWrite_append_singleton {e' : Event} : LastWrite (events ++ [e]) k e' ↔
    if e.property? = some k then e' = e else LastWrite events k e' := by
  unfold LastWrite
  split
  · rename_i h
    simp only [isGreatest_writes_of_eq h, exists_eq_left, getElem?_append_singleton_iff]
    simp
  · rename_i h
    rw [writes_of_ne h]
    refine exists_congr fun i => and_congr_right fun hi => ?_
    have hlt := lt_length_of_mem_writes hi.1
    rw [getElem?_append_singleton_iff]
    simp [hlt.ne]

/-- Only an expansion of the same name can end the time of an evaluated value that is not written
again. -/
theorem stands_append_singleton {v : StyleValue} : Stands (events ++ [e]) k v ↔
    if e.property? = some k then e = .evaluated k v else Stands events k v ∧ e ≠ .expanded k := by
  unfold Stands
  split
  · rename_i h
    have hexpanded : e ≠ .expanded k := by
      rintro rfl
      simp [Event.property?] at h
    simp only [isGreatest_writes_of_eq h, exists_eq_left, getElem?_append_singleton_iff]
    constructor
    · rintro ⟨hlast | ⟨-, hlast⟩, -⟩
      · exact absurd (lt_length_of_getElem? hlast) (by omega)
      · exact hlast.symm
    · rintro rfl
      refine ⟨.inr ⟨trivial, rfl⟩, ?_⟩
      rintro j (hj | ⟨-, hj⟩)
      · exact lt_length_of_getElem? hj
      · exact absurd hj.symm hexpanded
  · rename_i h
    simp only [writes_of_ne h, getElem?_append_singleton_iff]
    constructor
    · rintro ⟨i, hi, hlast, hexpanded⟩
      have hlt := lt_length_of_mem_writes hi.1
      refine ⟨⟨i, hi, hlast.resolve_right fun hnew => hlt.ne hnew.1,
        fun j hj => hexpanded j (.inl hj)⟩, ?_⟩
      rintro rfl
      exact absurd (hexpanded _ (.inr ⟨rfl, rfl⟩)) (by omega)
    · rintro ⟨⟨i, hi, hlast, hexpanded⟩, hne⟩
      refine ⟨i, hi, .inl hlast, ?_⟩
      rintro j (hj | ⟨-, hj⟩)
      · exact hexpanded j hj
      · exact absurd hj.symm hne

theorem mem_fixings_append_singleton : i ∈ fixings (events ++ [e]) k ↔
    (i ∈ fixings events k ∨ i = events.length ∧ ∃ v, e = .fixed k v) ∧
      ∀ v, e ≠ .evaluated k v := by
  simp only [fixings, Set.mem_ofPred_eq, getElem?_append_singleton_iff]
  constructor
  · rintro ⟨⟨v, hfixed⟩, hafter⟩
    have hle : i ≤ events.length := by
      rcases hfixed with hfixed | ⟨rfl, -⟩
      · exact (lt_length_of_getElem? hfixed).le
      · exact le_rfl
    refine ⟨?_, fun w hw => ?_⟩
    · rcases hfixed with hfixed | ⟨hi, hv⟩
      · exact .inl ⟨⟨v, hfixed⟩, fun j w hj => hafter j w (.inl hj)⟩
      · exact .inr ⟨hi, v, hv.symm⟩
    · exact absurd (hafter _ w (.inr ⟨rfl, hw.symm⟩)) (by omega)
  · rintro ⟨⟨⟨v, hfixed⟩, hafter⟩ | ⟨rfl, v, rfl⟩, hevaluated⟩
    · refine ⟨⟨v, .inl hfixed⟩, ?_⟩
      rintro j w (hj | ⟨-, hj⟩)
      · exact hafter j w hj
      · exact absurd hj.symm (hevaluated w)
    · refine ⟨⟨v, .inr ⟨rfl, rfl⟩⟩, ?_⟩
      rintro j w (hj | ⟨-, hj⟩)
      · exact lt_length_of_getElem? hj
      · exact absurd hj.symm (hevaluated w)

theorem fixings_of_ne (h : e.property? ≠ some k) :
    fixings (events ++ [e]) k = fixings events k := by
  ext i
  rw [mem_fixings_append_singleton]
  cases e with
  | fixed k' v =>
    have hk : k' ≠ k := by simpa [Event.property?] using h
    simp [hk]
  | evaluated k' v =>
    have hk : k' ≠ k := by simpa [Event.property?] using h
    simp [hk]
  | expanded k' => simp

/-- The first moment stays the first one. -/
theorem isLeast_fixings_of_fixed {v : StyleValue} (h : IsLeast (fixings events k) i) :
    IsLeast (fixings (events ++ [.fixed k v]) k) i := by
  refine ⟨mem_fixings_append_singleton.2 ⟨.inl h.1, by simp⟩, fun j hj => ?_⟩
  rcases (mem_fixings_append_singleton.1 hj).1 with hj | ⟨rfl, -⟩
  · exact h.2 hj
  · exact (lt_length_of_mem_fixings h.1).le

theorem isLeast_fixings_of_new {v : StyleValue} (h : fixings events k = ∅) :
    IsLeast (fixings (events ++ [.fixed k v]) k) events.length := by
  refine ⟨mem_fixings_append_singleton.2 ⟨.inr ⟨rfl, v, rfl⟩, by simp⟩, fun j hj => ?_⟩
  rcases (mem_fixings_append_singleton.1 hj).1 with hj | ⟨rfl, -⟩
  · simp [h] at hj
  · exact le_rfl

end Timeline

namespace StyleRule

open Timeline

/-! ## Recording events -/

/-- A rule after one event. -/
def record (r : StyleRule) : Event → StyleRule
  | .fixed k v => r.putStatic k v
  | .evaluated k v => r.putDynamic k v
  | .expanded k => r.dropDynamic k

/-- The rule that a row of events leaves. -/
def ofEvents (events : List Event) : StyleRule := events.foldl record .empty

theorem ofEvents_append_singleton (events : List Event) (e : Event) :
    ofEvents (events ++ [e]) = (ofEvents events).record e := by
  rw [ofEvents, List.foldl_append, List.foldl_cons, List.foldl_nil, ofEvents]

variable {events : List Event} {k : String} {v : StyleValue}

theorem get?_static_ofEvents :
    (ofEvents events).static.get? k = some v ↔ LastWrite events k (.fixed k v) := by
  induction events using List.reverseRecOn with
  | nil => simp [ofEvents, empty, LastWrite]
  | append_singleton events e ih =>
    rw [ofEvents_append_singleton, lastWrite_append_singleton]
    cases e with
    | fixed k' v' =>
      rw [record, putStatic, OrderedMap.get?_insert]
      by_cases hk : k' = k
      · simp [Event.property?, hk, eq_comm]
      · simp [Event.property?, hk, ih]
    | evaluated k' v' =>
      rw [record, putDynamic, OrderedMap.get?_erase]
      by_cases hk : k' = k
      · simp [Event.property?, hk]
      · simp [Event.property?, hk, ih]
    | expanded k' => simp [Event.property?, record, dropDynamic, ih]

theorem mem_dynamicEntries_ofEvents :
    (k, v) ∈ (ofEvents events).dynamicEntries ↔ Stands events k v := by
  induction events using List.reverseRecOn with
  | nil => simp [ofEvents, empty, dynamicEntries, Stands]
  | append_singleton events e ih =>
    rw [ofEvents_append_singleton, stands_append_singleton]
    cases e with
    | fixed k' v' =>
      rw [record, dynamicEntries_putStatic, List.mem_filter, ih]
      by_cases hk : k' = k
      · simp [Event.property?, hk]
      · simp [Event.property?, hk, Ne.symm hk]
    | evaluated k' v' =>
      rw [record, dynamicEntries_putDynamic, List.mem_append, List.mem_filter, ih]
      by_cases hk : k' = k
      · simp [Event.property?, hk, eq_comm]
      · simp [Event.property?, hk, Ne.symm hk]
    | expanded k' =>
      rw [record, dynamicEntries_dropDynamic, List.mem_filter, ih]
      by_cases hk : k' = k
      · simp [Event.property?, hk]
      · simp [Event.property?, hk, Ne.symm hk]

/-! ## The order of properties -/

theorem pairwise_dynamicEntries_ofEvents (events : List Event) :
    ((ofEvents events).dynamicEntries.map Prod.fst).Pairwise
      (Before fun k i => IsGreatest (writes events k) i) := by
  induction events using List.reverseRecOn with
  | nil => simp [ofEvents, empty, dynamicEntries]
  | append_singleton events e ih =>
    -- an event leaves the moments of all other properties as they are
    have hkept : ∀ k', (∀ k, k ≠ k' → e.property? ≠ some k) →
        (((ofEvents events).dynamicEntries.filter (·.1 ≠ k')).map Prod.fst).Pairwise
          (Before fun k i => IsGreatest (writes (events ++ [e]) k) i) := by
      intro k' hothers
      refine pairwise_before_congr (ih.sublist (List.filter_sublist.map _)) fun k hk i hi => ?_
      obtain ⟨e', he', rfl⟩ := List.mem_map.1 hk
      rwa [writes_of_ne (hothers _ (of_decide_eq_true (List.mem_filter.1 he').2))]
    rw [ofEvents_append_singleton]
    cases e with
    | fixed k' v =>
      rw [record, dynamicEntries_putStatic]
      exact hkept k' fun k hk => by simpa [Event.property?] using Ne.symm hk
    | expanded k' =>
      rw [record, dynamicEntries_dropDynamic]
      exact hkept k' fun k hk => by simp [Event.property?]
    | evaluated k' v =>
      have hothers : ∀ k, k ≠ k' → (Event.evaluated k' v).property? ≠ some k :=
        fun k hk => by simpa [Event.property?] using Ne.symm hk
      rw [record, dynamicEntries_putDynamic, List.map_append]
      refine pairwise_before_append (hkept k' hothers) (fun k hk => ?_)
        ((isGreatest_writes_of_eq rfl).2 rfl)
      obtain ⟨⟨k, w⟩, he', rfl⟩ := List.mem_map.1 hk
      obtain ⟨hmem, hne⟩ := List.mem_filter.1 he'
      obtain ⟨i, hi, -⟩ := mem_dynamicEntries_ofEvents.1 hmem
      refine ⟨i, ?_, lt_length_of_mem_writes hi.1⟩
      rwa [writes_of_ne (hothers _ (of_decide_eq_true hne))]

/-- A property is fixed if it was fixed after it was last evaluated. -/
theorem mem_keys_static_ofEvents :
    k ∈ (ofEvents events).static.keys ↔ (fixings events k).Nonempty := by
  induction events using List.reverseRecOn with
  | nil => simp [ofEvents, empty, OrderedMap.keys, OrderedMap.empty, fixings]
  | append_singleton events e ih =>
    rw [ofEvents_append_singleton]
    cases e with
    | fixed k' v =>
      rw [record, putStatic, OrderedMap.mem_keys_insert, ih]
      by_cases hk : k = k'
      · subst hk
        simp only [true_or, true_iff]
        exact ⟨_, mem_fixings_append_singleton.2 ⟨.inr ⟨rfl, v, rfl⟩, by simp⟩⟩
      · rw [fixings_of_ne (by simpa [Event.property?] using Ne.symm hk)]
        simp [hk]
    | evaluated k' v =>
      rw [record, putDynamic, OrderedMap.keys_erase, List.mem_filter, ih]
      by_cases hk : k = k'
      · subst hk
        have hnone : ¬ (fixings (events ++ [.evaluated k v]) k).Nonempty := by
          rintro ⟨i, hi⟩
          exact (mem_fixings_append_singleton.1 hi).2 v rfl
        simp [hnone]
      · rw [fixings_of_ne (by simpa [Event.property?] using Ne.symm hk)]
        simp [hk]
    | expanded k' =>
      rw [fixings_of_ne (by simp [Event.property?])]
      exact ih

theorem pairwise_keys_static_ofEvents (events : List Event) :
    (ofEvents events).static.keys.Pairwise
      (Before fun k i => IsLeast (fixings events k) i) := by
  induction events using List.reverseRecOn with
  | nil => simp [ofEvents, empty, OrderedMap.keys, OrderedMap.empty]
  | append_singleton events e ih =>
    rw [ofEvents_append_singleton]
    cases e with
    | fixed k' v =>
      have hsame : ∀ k i, IsLeast (fixings events k) i →
          IsLeast (fixings (events ++ [.fixed k' v]) k) i := by
        intro k i hi
        by_cases hk : k = k'
        · subst hk
          exact isLeast_fixings_of_fixed hi
        · rwa [fixings_of_ne (by simpa [Event.property?] using Ne.symm hk)]
      have hold := pairwise_before_congr ih fun k _ i hi => hsame k i hi
      rw [record, putStatic, OrderedMap.keys_insert]
      split
      · exact hold
      · rename_i hnew
        refine pairwise_before_append (n := events.length) hold (fun k hk => ?_) ?_
        · have hnonempty := mem_keys_static_ofEvents.1 hk
          have hleast : IsLeast (fixings events k) (sInf (fixings events k)) :=
            ⟨Nat.sInf_mem hnonempty, fun j hj => Nat.sInf_le hj⟩
          exact ⟨_, hsame k _ hleast, lt_length_of_mem_fixings hleast.1⟩
        · refine isLeast_fixings_of_new (Set.not_nonempty_iff_eq_empty.1 ?_)
          exact fun h => hnew (mem_keys_static_ofEvents.2 h)
    | evaluated k' v =>
      rw [record, putDynamic, OrderedMap.keys_erase]
      refine pairwise_before_congr (ih.sublist List.filter_sublist) fun k hk i hi => ?_
      have hne : k ≠ k' := of_decide_eq_true (List.mem_filter.1 hk).2
      rwa [fixings_of_ne (by simpa [Event.property?] using Ne.symm hne)]
    | expanded k' =>
      refine pairwise_before_congr ih fun k _ i hi => ?_
      rwa [fixings_of_ne (by simp [Event.property?])]

end StyleRule

/-! ## Declarations as events -/

/-- What a write does to each property. -/
def Write.events : Write → List Event
  | .dynamic k v => [.evaluated k v]
  | .static k v => [.fixed k v]
  | .expanded k entries => .expanded k :: entries.map fun e => .fixed e.1 e.2

theorem StyleRule.apply_eq_foldl (r : StyleRule) (w : Write) :
    r.apply w = w.events.foldl record r := by
  cases w with
  | dynamic k v => rfl
  | static k v => rfl
  | expanded k entries => rw [Write.events, List.foldl_cons, List.foldl_map]; rfl

theorem StyleRule.ofWrites_eq_ofEvents (ws : List Write) :
    ofWrites ws = ofEvents (ws.flatMap Write.events) := by
  rw [ofWrites, ofEvents, List.foldl_flatMap]
  congr 1
  funext r w
  exact r.apply_eq_foldl w

theorem Declaration.IsRead.events_write {d : Declaration} (h : d.IsRead) :
    d.write.events = d.events := by
  rw [write, events, h.expandShorthand?_eq]
  split
  · rfl
  · cases d.expansion? <;> rfl

namespace Block

open Timeline

theorem rule_eq_ofEvents (css : String) :
    (ofText css).rule = StyleRule.ofEvents (timeline css) := by
  rw [rule_ofText, StyleRule.ofWrites_eq_ofEvents, List.flatMap_map, timeline]
  congr 1
  exact List.flatMap_congr fun d hd => (Declaration.isRead_of_mem hd).events_write

/-- **The last writer wins.** However a block is written, a property is fixed with a value just if
its last write fixes this value, and it is evaluated with a value just if its last write leaves this
value to be evaluated and no shorthand of its name is expanded after that. The evaluated properties
stand in the order of their last writes; the fixed ones stand in the order of their first writes
with a fixed value since they were last written with an evaluated one. -/
theorem timeline_ofText (css : String) :
    let rule := (ofText css).rule
    let events := timeline css
    (∀ k v, rule.static.get? k = some v ↔ LastWrite events k (.fixed k v)) ∧
    (∀ k v, (k, v) ∈ rule.dynamicEntries ↔ Stands events k v) ∧
    (rule.dynamicEntries.map Prod.fst).Pairwise
      (Before fun k i => IsGreatest (writes events k) i) ∧
    rule.static.keys.Pairwise (Before fun k i => IsLeast (fixings events k) i) := by
  intro rule events
  have hrule : rule = StyleRule.ofEvents events := rule_eq_ofEvents css
  rw [hrule]
  exact ⟨fun k v => StyleRule.get?_static_ofEvents,
    fun k v => StyleRule.mem_dynamicEntries_ofEvents,
    StyleRule.pairwise_dynamicEntries_ofEvents events,
    StyleRule.pairwise_keys_static_ofEvents events⟩

end Block

end TemplateStyles
