import Mathlib.Data.List.Induction
import TemplateStyles.Proofs.Render.Resolution
import TemplateStyles.Render.Fragment
/-!
# Expanded fragments as maps

What `StyleObject.expand` gives, read through `get?`: the same as a style that is resolved by itself
(`expand_sameAs_resolve`), if no value is `null`. While a style is expanded, every side holds the
value of the most specific property seen so far (`get?_foldl_putSides_side`).
-/
namespace TemplateStyles

/-- The shorthands that cover a side are its axis and the whole box. -/
theorem BoxPart.mem_sides_iff {side part : BoxPart} (hs : side ∈ all.sides)
    (hp : part ∈ shorthands) : side ∈ part.sides ↔ part = side.axis ∨ part = .all := by
  cases side <;> cases part <;> first
    | decide
    | (revert hs; decide)
    | (revert hp; decide)

theorem BoxPart.ne_of_mem_shorthands {side part : BoxPart} (hs : side ∈ all.sides)
    (hp : part ∈ shorthands) : side ≠ part := by
  rintro rfl
  cases side <;> simp_all [sides, shorthands]

theorem BoxPart.axis_mem_shorthands (side : BoxPart) : side.axis ∈ shorthands := by
  cases side <;> decide

/-- What a side inherits depends on the shorthands alone. -/
theorem BoxFamily.inherited?_congr {f : BoxFamily} {s t : StyleObject}
    (h : ∀ part ∈ BoxPart.shorthands, s.get? (f.key part) = t.get? (f.key part)) (side : BoxPart) :
    f.inherited? s side = f.inherited? t side := by
  rw [inherited?, inherited?, h _ side.axis_mem_shorthands, h .all (by decide)]

namespace BoxShorthand

theorem mem_inFragments_iff {k : String} :
    k ∈ inFragments ↔ ∃ f : BoxFamily, ∃ part ∈ BoxPart.shorthands, k = f.key part := by
  constructor
  · intro h
    obtain ⟨s, -, rfl⟩ := List.mem_map.1 h
    exact ⟨s.family, s.part, s.part_mem, rfl⟩
  · rintro ⟨f, part, hp, rfl⟩
    cases f <;> cases part <;> first
      | decide
      | (revert hp; decide)

theorem ofName?_key (f : BoxFamily) {part : BoxPart} (h : part ∈ BoxPart.shorthands) :
    ofName? (f.key part) = some ⟨f, part, h⟩ := by
  cases f <;> cases part <;> first
    | rfl
    | (revert h; decide)

theorem ofName?_eq_none {k : String} (h : ∀ (f : BoxFamily) (part : BoxPart), k ≠ f.key part) :
    ofName? k = none :=
  List.find?_eq_none.2 fun s _ he => h s.family s.part (of_decide_eq_true he).symm

end BoxShorthand

namespace StyleObject

open BoxFamily BoxShorthand

/-! ## What one property stands for -/

theorem sides_key (f : BoxFamily) {part : BoxPart} (h : part ∈ BoxPart.shorthands) (v : Json) :
    sides (f.key part, v) = part.sides.map fun side => (f.key side, v) := by
  have hk : f.key part ∈ inFragments := mem_inFragments_iff.2 ⟨f, part, h, rfl⟩
  unfold sides expandAmong?
  rw [if_pos hk, ofName?_key f h]
  rfl

theorem sides_of_not_mem {e : String × Json} (h : e.1 ∉ inFragments) : sides e = [e] := by
  unfold sides expandAmong?
  rw [if_neg h]
  rfl

theorem snd_of_mem_sides {e side : String × Json} (h : side ∈ sides e) : side.2 = e.2 := by
  by_cases hk : e.1 ∈ inFragments
  · obtain ⟨f, part, hp, hf⟩ := mem_inFragments_iff.1 hk
    rw [show e = (f.key part, e.2) from Prod.ext hf rfl, sides_key f hp] at h
    obtain ⟨-, -, rfl⟩ := List.mem_map.1 h
    rfl
  · rw [sides_of_not_mem hk, List.mem_singleton] at h
    rw [h]

theorem rank_key (f : BoxFamily) (part : BoxPart) : rank (f.key part) = part.rank := by
  cases f <;> cases part <;> rfl

/-- The properties that set a side are the side, its axis and the whole box. -/
theorem side_mem_sides_iff {f : BoxFamily} {side : BoxPart} (h : side ∈ BoxPart.all.sides)
    {e : String × Json} : f.key side ∈ (sides e).map Prod.fst ↔
      e.1 = f.key side ∨ e.1 = f.key side.axis ∨ e.1 = f.key .all := by
  have hne : ∀ part ∈ BoxPart.shorthands, side ≠ part := fun _ => BoxPart.ne_of_mem_shorthands h
  by_cases hk : e.1 ∈ inFragments
  · obtain ⟨g, part, hp, hg⟩ := mem_inFragments_iff.1 hk
    have hcover := BoxPart.mem_sides_iff h hp
    rw [show e = (g.key part, e.2) from Prod.ext hg rfl, sides_key g hp]
    simp only [List.map_map, List.mem_map, Function.comp_apply, key_eq_key_iff,
      Ne.symm (hne part hp), and_false, false_or, ← and_or_left, ← hcover]
    constructor
    · rintro ⟨s, hs, hgf, rfl⟩
      exact ⟨hgf, hs⟩
    · rintro ⟨hgf, hs⟩
      exact ⟨side, hs, hgf, rfl⟩
  · have hshort : ∀ part ∈ BoxPart.shorthands, e.1 ≠ f.key part := fun part hp he =>
      hk (mem_inFragments_iff.2 ⟨f, part, hp, he⟩)
    rw [sides_of_not_mem hk]
    simp only [List.map_cons, List.map_nil, List.mem_singleton, hshort _ side.axis_mem_shorthands,
      hshort .all (by decide), or_false]
    exact eq_comm

theorem shorthand_not_mem_sides (f : BoxFamily) {part : BoxPart} (h : part ∈ BoxPart.shorthands)
    (e : String × Json) : f.key part ∉ (sides e).map Prod.fst := by
  by_cases hk : e.1 ∈ inFragments
  · obtain ⟨g, q, hq, hg⟩ := mem_inFragments_iff.1 hk
    have hsides : part ∉ q.sides := by
      cases q <;> cases part <;> first
        | decide
        | (revert h; decide)
    rw [show e = (g.key q, e.2) from Prod.ext hg rfl, sides_key g hq]
    rw [List.map_map]
    rintro hmem
    obtain ⟨side, hs, he⟩ := List.mem_map.1 hmem
    exact hsides ((key_inj he).2 ▸ hs)
  · rw [sides_of_not_mem hk]
    have he : e.1 ≠ f.key part := fun he => hk (mem_inFragments_iff.2 ⟨f, part, h, he⟩)
    simpa using he.symm

theorem other_mem_sides_iff {k : String} (h : ∀ (f : BoxFamily) (part : BoxPart), k ≠ f.key part)
    {e : String × Json} : k ∈ (sides e).map Prod.fst ↔ e.1 = k := by
  by_cases hk : e.1 ∈ inFragments
  · obtain ⟨g, q, hq, hg⟩ := mem_inFragments_iff.1 hk
    rw [show e = (g.key q, e.2) from Prod.ext hg rfl, sides_key g hq]
    simp only [List.map_map, List.mem_map, Function.comp_apply, Ne.symm (h g q), iff_false]
    rintro ⟨side, -, e⟩
    exact h g side e.symm
  · rw [sides_of_not_mem hk]
    simp [eq_comm]

/-! ## The ranked fold -/

theorem get?_putRanked (m : OrderedMap Ranked) (rank : Nat) (e : String × Json) (k : String) :
    (putRanked m rank e).get? k =
      if k = e.1 ∧ (m.get? k).all (·.rank ≤ rank) then some ⟨e.2, rank⟩ else m.get? k := by
  unfold putRanked
  by_cases hk : k = e.1
  · subst hk
    by_cases hr : (m.get? e.1).all (·.rank ≤ rank) = true
    · simp [hr, OrderedMap.get?_insert]
    · simp [hr]
  · have hcond : ¬ (k = e.1 ∧ (m.get? k).all (·.rank ≤ rank) = true) := fun h => hk h.1
    rw [if_neg hcond]
    split
    · rw [OrderedMap.get?_insert, if_neg (Ne.symm hk)]
    · rfl

theorem get?_foldl_putRanked (rank : Nat) (v : Json) (k : String) :
    ∀ (l : List (String × Json)) (m : OrderedMap Ranked), (∀ e ∈ l, e.2 = v) →
      (l.foldl (fun m e => putRanked m rank e) m).get? k =
        if k ∈ l.map Prod.fst ∧ (m.get? k).all (·.rank ≤ rank) then some ⟨v, rank⟩
        else m.get? k
  | [], m, _ => by simp
  | e :: l, m, h => by
    have he : e.2 = v := h e (List.mem_cons_self ..)
    have hl : ∀ x ∈ l, x.2 = v := fun x hx => h x (List.mem_cons_of_mem _ hx)
    rw [List.foldl_cons, get?_foldl_putRanked rank v k l _ hl, get?_putRanked, he]
    simp only [List.map_cons, List.mem_cons]
    generalize m.get? k = o
    by_cases hr : o.all (·.rank ≤ rank) = true
    · by_cases hk : k = e.1
      · have hhead : k = e.1 ∧ o.all (·.rank ≤ rank) = true := ⟨hk, hr⟩
        rw [if_pos hhead, ite_self, if_pos ⟨.inl hk, hr⟩]
      · have hhead : ¬ (k = e.1 ∧ o.all (·.rank ≤ rank) = true) := fun h => hk h.1
        rw [if_neg hhead]
        simp only [hk, false_or]
    · simp [hr]

theorem get?_putSides (m : OrderedMap Ranked) (e : String × Json) (k : String) :
    (putSides m e).get? k =
      if k ∈ (sides e).map Prod.fst ∧ (m.get? k).all (·.rank ≤ rank e.1) then
        some ⟨e.2, rank e.1⟩
      else m.get? k :=
  get?_foldl_putRanked (rank e.1) e.2 k (sides e) m fun _ h => snd_of_mem_sides h

/-- The value that an entry list gives a side, with the rank of the property that sets it. -/
def ranked? (f : BoxFamily) (side : BoxPart) (l : List (String × Json)) : Option Ranked :=
  ((Entries.find? (f.key side) l).map (⟨·, 2⟩)).or
    (((Entries.find? (f.key side.axis) l).map (⟨·, 1⟩)).or
      ((Entries.find? (f.key .all) l).map (⟨·, 0⟩)))

/-- One more entry of a new property counts for a side just if it covers the side and nothing more
specific does. -/
theorem ranked?_append {f : BoxFamily} {side : BoxPart} (hside : side ∈ BoxPart.all.sides)
    {l : List (String × Json)} {e : String × Json} (hnew : e.1 ∉ l.map Prod.fst) :
    ranked? f side (l ++ [e]) =
      if f.key side ∈ (sides e).map Prod.fst ∧ (ranked? f side l).all (·.rank ≤ rank e.1) then
        some ⟨e.2, rank e.1⟩
      else ranked? f side l := by
  have hfind : ∀ k, Entries.find? k (l ++ [e]) =
      (Entries.find? k l).or (if e.1 = k then some e.2 else none) := by
    intro k; rw [Entries.find?_append]; rfl
  have hnone : Entries.find? e.1 l = none := Entries.find?_eq_none_iff.2 hnew
  have hrank : side.rank = 2 ∧ side.axis.rank = 1 := by
    cases side <;> simp_all [BoxPart.sides, BoxPart.rank, BoxPart.axis]
  have hne : side ≠ side.axis ∧ side ≠ .all ∧ side.axis ≠ .all := by
    cases side <;> simp_all [BoxPart.sides, BoxPart.axis]
  simp only [ranked?, hfind, side_mem_sides_iff hside]
  by_cases hs : e.1 = f.key side
  · rw [hs] at hnone ⊢
    rw [rank_key, hrank.1, hnone]
    cases Entries.find? (f.key side.axis) l <;> cases Entries.find? (f.key .all) l <;>
      simp [hne]
  by_cases ha : e.1 = f.key side.axis
  · rw [ha] at hnone ⊢
    rw [rank_key, hrank.2, hnone]
    cases Entries.find? (f.key side) l <;> cases Entries.find? (f.key .all) l <;>
      simp [hne, Ne.symm hne.1]
  by_cases hall : e.1 = f.key .all
  · rw [hall] at hnone ⊢
    rw [rank_key, hnone]
    cases Entries.find? (f.key side) l <;> cases Entries.find? (f.key side.axis) l <;>
      simp [Ne.symm hne.2.1, Ne.symm hne.2.2, BoxPart.rank]
  · simp [hs, ha, hall]

/-- Putting the entries of a style one by one keeps, for every side, what `ranked?` says of the
entries so far. -/
theorem get?_foldl_putSides_side (f : BoxFamily) {side : BoxPart} (hside : side ∈ BoxPart.all.sides)
    {l : List (String × Json)} (h : (l.map Prod.fst).Nodup) :
    (l.foldl putSides .empty).get? (f.key side) = ranked? f side l := by
  induction l using List.reverseRecOn with
  | nil => rfl
  | append_singleton l e ih =>
    simp only [List.map_append, List.map_cons, List.map_nil, List.nodup_append,
      List.mem_singleton] at h
    have hnew : e.1 ∉ l.map Prod.fst := fun hmem => h.2.2 _ hmem _ rfl rfl
    rw [List.foldl_append, List.foldl_cons, List.foldl_nil, get?_putSides, ih h.1,
      ranked?_append hside hnew]

theorem get?_foldl_putSides_shorthand (f : BoxFamily) {part : BoxPart}
    (h : part ∈ BoxPart.shorthands) (l : List (String × Json)) :
    (l.foldl putSides .empty).get? (f.key part) = none := by
  induction l using List.reverseRecOn with
  | nil => rfl
  | append_singleton l e ih =>
    rw [List.foldl_append, List.foldl_cons, List.foldl_nil, get?_putSides,
      if_neg (fun hc => shorthand_not_mem_sides f h e hc.1), ih]

theorem get?_foldl_putSides_other {k : String}
    (hk : ∀ (f : BoxFamily) (part : BoxPart), k ≠ f.key part) {l : List (String × Json)}
    (h : (l.map Prod.fst).Nodup) :
    (l.foldl putSides .empty).get? k = (Entries.find? k l).map (⟨·, 2⟩) := by
  induction l using List.reverseRecOn with
  | nil => rfl
  | append_singleton l e ih =>
    simp only [List.map_append, List.map_cons, List.map_nil, List.nodup_append,
      List.mem_singleton] at h
    have hnew : e.1 ∉ l.map Prod.fst := fun hmem => h.2.2 _ hmem _ rfl rfl
    rw [List.foldl_append, List.foldl_cons, List.foldl_nil, get?_putSides, ih h.1,
      Entries.find?_append]
    by_cases he : e.1 = k
    · subst he
      have hrank : rank e.1 = 2 := by
        unfold rank
        rw [show ofName? e.1 = none from ofName?_eq_none hk]
      simp [Entries.find?_eq_none_iff.2 hnew, other_mem_sides_iff hk, hrank, Entries.find?]
    · simp [other_mem_sides_iff hk, he, Entries.find?]

/-! ## Expanded styles -/

theorem find?_entries (style : StyleObject) (k : String) :
    Entries.find? k style.entries = style.get? k := rfl

theorem get?_of_not_expanded {style : StyleObject}
    (h : ¬ style.keys.any (· ∈ inFragments) = true) {k : String} (hk : k ∈ inFragments) :
    style.get? k = none := by
  rw [OrderedMap.get?_eq_none_iff]
  exact fun hmem => h (List.any_eq_true.2 ⟨k, hmem, decide_eq_true hk⟩)

/-- A style without shorthands is kept as it is. -/
theorem expand_of_keys {style : StyleObject} (h : ∀ k ∈ style.keys, k ∉ inFragments) :
    expand style = style := by
  have hany : ¬ style.keys.any (· ∈ inFragments) = true := by
    intro hmem
    obtain ⟨k, hk, hin⟩ := List.any_eq_true.1 hmem
    exact h k hk (of_decide_eq_true hin)
  rw [expand, if_neg hany]

theorem keys_typed (style : StyleObject) : (typed style).keys = style.keys := by
  simp only [typed, OrderedMap.mapValues, OrderedMap.keys, List.map_map, Function.comp_def]

theorem get?_expand_side (style : StyleObject) (f : BoxFamily) {side : BoxPart}
    (h : side ∈ BoxPart.all.sides) :
    (expand style).get? (f.key side) = f.covering? style side := by
  unfold expand covering? inherited?
  split
  · rw [OrderedMap.get?_mapValues, get?_foldl_putSides_side f h style.nodup]
    simp only [ranked?, Option.map_or, Option.map_map, find?_entries]
    cases style.get? (f.key side) <;> cases style.get? (f.key side.axis) <;>
      cases style.get? (f.key .all) <;> rfl
  · rename_i hn
    have hshort : ∀ part ∈ BoxPart.shorthands, style.get? (f.key part) = none :=
      fun part hp => get?_of_not_expanded hn (mem_inFragments_iff.2 ⟨f, part, hp, rfl⟩)
    rw [hshort _ side.axis_mem_shorthands, hshort .all (by decide), Option.or_none,
      Option.or_none]

theorem get?_expand_shorthand (style : StyleObject) (f : BoxFamily) {part : BoxPart}
    (h : part ∈ BoxPart.shorthands) : (expand style).get? (f.key part) = none := by
  unfold expand
  split
  · rw [OrderedMap.get?_mapValues, get?_foldl_putSides_shorthand f h, Option.map_none]
  · rename_i hn
    exact get?_of_not_expanded hn (mem_inFragments_iff.2 ⟨f, part, h, rfl⟩)

theorem get?_expand_other (style : StyleObject) {k : String}
    (h : ∀ (f : BoxFamily) (part : BoxPart), k ≠ f.key part) :
    (expand style).get? k = style.get? k := by
  unfold expand
  split
  · rw [OrderedMap.get?_mapValues, get?_foldl_putSides_other h style.nodup, find?_entries]
    cases style.get? k <;> rfl
  · rfl

/-- No property is left unset by a `null`. -/
def HasNoNull (style : StyleObject) : Prop := .null ∉ style.values

instance (style : StyleObject) : Decidable style.HasNoNull :=
  inferInstanceAs (Decidable (.null ∉ style.values))

theorem HasNoNull.get?_ne_null {style : StyleObject} (h : style.HasNoNull) (k : String) :
    style.get? k ≠ some .null :=
  fun hk => h (List.mem_map_of_mem (OrderedMap.get?_eq_some_iff.1 hk))

theorem HasNoNull.filter_get? {style : StyleObject} (h : style.HasNoNull) (k : String) :
    (style.get? k).filter (· ≠ .null) = style.get? k := by
  cases hv : style.get? k with
  | none => rfl
  | some v =>
    have hne : v ≠ .null := fun e => h.get?_ne_null k (e ▸ hv)
    simp [Option.filter, hne]

theorem hasNoNull_of_get? {style : StyleObject} (h : ∀ k, style.get? k ≠ some .null) :
    style.HasNoNull := by
  intro hmem
  obtain ⟨⟨k, v⟩, he, rfl⟩ := List.mem_map.1 hmem
  exact h k (OrderedMap.get?_eq_some_iff.2 he)

theorem HasNoNull.expand {style : StyleObject} (h : style.HasNoNull) :
    (StyleObject.expand style).HasNoNull := by
  refine hasNoNull_of_get? fun k => ?_
  rcases name_cases k with ⟨f, side, hs, rfl⟩ | ⟨f, part, hp, rfl⟩ | hk
  · rw [get?_expand_side style f hs, covering?, inherited?]
    simp only [ne_eq, Option.or_eq_some_iff, not_or, not_and]
    exact ⟨h.get?_ne_null _, fun _ => ⟨h.get?_ne_null _, fun _ => h.get?_ne_null _⟩⟩
  · rw [get?_expand_shorthand style f hp]; simp
  · rw [get?_expand_other style hk]; exact h.get?_ne_null k

theorem get?_flatten_of_hasNoNull (r : SheetRegistry) {style : StyleObject}
    (h : style.HasNoNull) (k : String) : (r.flatten [.inlined style]).get? k = style.get? k := by
  rw [r.get?_flatten_of_style? rfl, h.filter_get?]

/-- **Expansion is resolution**: a style without `null` is expanded to what it resolves to. -/
theorem expand_sameAs_resolve (r : SheetRegistry) {style : StyleObject} (h : style.HasNoNull) :
    (expand style).SameAs (r.resolve [.inlined style]) := by
  intro k
  have hflat := get?_flatten_of_hasNoNull r h
  rcases name_cases k with ⟨f, side, hs, rfl⟩ | ⟨f, part, hp, rfl⟩ | hk
  · rw [get?_expand_side style f hs, r.get?_resolve_side _ f hs]
    exact covering?_congr (fun part => (hflat _).symm) side
  · rw [get?_expand_shorthand style f hp, r.get?_resolve_shorthand _ f hp]
  · rw [get?_expand_other style hk, r.get?_resolve_other _ hk, hflat]

theorem not_mem_keys_expand (style : StyleObject) {k : String} (hk : k ∈ inFragments) :
    k ∉ (expand style).keys := by
  obtain ⟨f, part, hp, rfl⟩ := mem_inFragments_iff.1 hk
  exact OrderedMap.get?_eq_none_iff.1 (get?_expand_shorthand style f hp)

theorem expand_expand (style : StyleObject) : expand (expand style) = expand style :=
  expand_of_keys fun _ hmem hk => not_mem_keys_expand style hk hmem

/-- Expanding depends on a style only through its properties, not through their order. -/
theorem expand_sameAs {s t : StyleObject} (h : s.SameAs t) : (expand s).SameAs (expand t) := by
  intro k
  rcases name_cases k with ⟨f, side, hs, rfl⟩ | ⟨f, part, hp, rfl⟩ | hk
  · rw [get?_expand_side s f hs, get?_expand_side t f hs]
    exact covering?_congr (fun part => h (f.key part)) side
  · rw [get?_expand_shorthand s f hp, get?_expand_shorthand t f hp]
  · rw [get?_expand_other s hk, get?_expand_other t hk, h k]

/-- **Expansion agrees with the platform.** A style without `null` is expanded to what the platform
makes of a list with this style alone: no shorthand is left, every other property keeps its value,
and each side has the value of the most specific property that covers it. The order of the
properties does not matter. -/
theorem expand_agrees_with_platform (r : SheetRegistry) {style : StyleObject}
    (h : style.HasNoNull) :
    (expand style).SameAs (r.resolve [.inlined style]) ∧
    (∀ k ∈ inFragments, k ∉ (expand style).keys) ∧
    (∀ k ∉ inFragments, ∀ v, style.get? k = some v → (expand style).get? k = some v) ∧
    (∀ k, (∀ (f : BoxFamily) (part : BoxPart), k ≠ f.key part) →
      (expand style).get? k = style.get? k) ∧
    (∀ (f : BoxFamily), ∀ side ∈ BoxPart.all.sides,
      (expand style).get? (f.key side) = (style.get? (f.key side)).or
        ((style.get? (f.key side.axis)).or (style.get? (f.key .all)))) ∧
    ∀ other : StyleObject, other.entries.Perm style.entries →
      (expand other).SameAs (expand style) := by
  refine ⟨expand_sameAs_resolve r h, fun k hk => not_mem_keys_expand style hk, fun k hk v hv => ?_,
    fun k hk => get?_expand_other style hk, fun f side hs => get?_expand_side style f hs,
    fun other hperm => expand_sameAs fun k => Entries.find?_perm hperm other.nodup⟩
  rcases name_cases k with ⟨f, side, hs, rfl⟩ | ⟨f, part, hp, rfl⟩ | hother
  · rw [get?_expand_side style f hs, covering?, hv, Option.some_or]
  · exact absurd (mem_inFragments_iff.2 ⟨f, part, hp, rfl⟩) hk
  · rw [get?_expand_other style hother, hv]

/-- Both families, with the side before its axis in one and after the whole box in the other. -/
theorem expand_agrees_with_platform_both :
    let style : StyleObject := .ofList
      [("paddingLeft", .num (.int 3)), ("paddingHorizontal", .num (.int 5)),
        ("color", .str "red"), ("margin", .num (.int 1)), ("marginTop", .num (.int 8)),
        ("padding", .num (.int 2))]
    style.HasNoNull ∧
      (expand style).SameAs (SheetRegistry.empty.resolve [.inlined style]) ∧
      (expand style).get? "paddingLeft" = some (.num (.int 3)) ∧
      (expand style).get? "paddingRight" = some (.num (.int 5)) ∧
      (expand style).get? "paddingTop" = some (.num (.int 2)) ∧
      (expand style).get? "marginTop" = some (.num (.int 8)) := by
  intro style
  have h : style.HasNoNull := by decide +kernel
  obtain ⟨hsame, -, -, -, hside, -⟩ := expand_agrees_with_platform .empty h
  refine ⟨h, hsame, ?_, ?_, ?_, ?_⟩
  · exact (hside .padding .left (by decide)).trans (by decide +kernel)
  · exact (hside .padding .right (by decide)).trans (by decide +kernel)
  · exact (hside .padding .top (by decide)).trans (by decide +kernel)
  · exact (hside .margin .top (by decide)).trans (by decide +kernel)

end StyleObject

end TemplateStyles
