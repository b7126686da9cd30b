import TemplateStyles.Render.StyleSheet
/-!
# Resolved styles as maps

What `SheetRegistry.resolve` gives, read through `get?`. A name is a side of a box, a shorthand for
sides or no box property at all (`BoxFamily.name_cases`). A resolved style holds no shorthand
(`get?_resolve_shorthand`), gives each side the value of the most specific property that covers it
(`get?_resolve_side`) and leaves the rest as it was flattened (`get?_resolve_other`).
-/
namespace TemplateStyles

namespace BoxFamily

/-! ## Names of box properties -/

theorem key_inj {f g : BoxFamily} {p q : BoxPart} (h : f.key p = g.key q) : f = g ∧ p = q := by
  cases f <;> cases g <;> cases p <;> cases q <;> first
    | exact ⟨rfl, rfl⟩
    | (revert h; decide)

@[simp] theorem key_eq_key_iff {f g : BoxFamily} {p q : BoxPart} :
    f.key p = g.key q ↔ f = g ∧ p = q :=
  ⟨key_inj, fun h => by rw [h.1, h.2]⟩

theorem mem_sides_or_mem_shorthands (part : BoxPart) :
    part ∈ BoxPart.all.sides ∨ part ∈ BoxPart.shorthands := by
  cases part <;> decide

theorem name_cases (k : String) :
    (∃ f : BoxFamily, ∃ side ∈ BoxPart.all.sides, k = f.key side) ∨
    (∃ f : BoxFamily, ∃ part ∈ BoxPart.shorthands, k = f.key part) ∨
    ∀ (f : BoxFamily) (part : BoxPart), k ≠ f.key part := by
  by_cases h : ∃ (f : BoxFamily) (part : BoxPart), k = f.key part
  · obtain ⟨f, part, rfl⟩ := h
    rcases mem_sides_or_mem_shorthands part with hp | hp
    · exact .inl ⟨f, part, hp, rfl⟩
    · exact .inr (.inl ⟨f, part, hp, rfl⟩)
  · exact .inr (.inr fun f part e => h ⟨f, part, e⟩)

/-- The value that a style gives a side: that of the side itself, else that of its axis, else that
of the whole box. -/
def covering? (f : BoxFamily) (style : StyleObject) (side : BoxPart) : Option Json :=
  (style.get? (f.key side)).or (f.inherited? style side)

theorem covering?_congr {f : BoxFamily} {s t : StyleObject}
    (h : ∀ part, s.get? (f.key part) = t.get? (f.key part)) (side : BoxPart) :
    f.covering? s side = f.covering? t side := by
  simp only [covering?, inherited?, h]

/-! ## Settling one family -/

theorem get?_withoutShorthands (f : BoxFamily) (style : StyleObject) (k : String) :
    (f.withoutShorthands style).get? k =
      if k ∈ BoxPart.shorthands.map f.key then none else style.get? k := by
  simp only [withoutShorthands, BoxPart.shorthands, List.foldl_cons, List.foldl_nil,
    OrderedMap.get?_eraseSwap, List.map_cons, List.map_nil, List.mem_cons, List.not_mem_nil,
    or_false]
  by_cases h1 : k = f.key .all <;> by_cases h2 : k = f.key .vertical <;>
    by_cases h3 : k = f.key .horizontal <;> simp [h1, h2, h3, eq_comm]

/-- One side of the family, settled unless it is. -/
def settleSide (f : BoxFamily) (style settled : StyleObject) (side : BoxPart) : StyleObject :=
  if settled.contains (f.key side) then settled
  else match f.inherited? style side with
    | some v => settled.insert (f.key side) v
    | none => settled

theorem settle_eq_foldl (f : BoxFamily) (style : StyleObject) :
    f.settle style = BoxPart.all.sides.foldl (f.settleSide style) (f.withoutShorthands style) := rfl

theorem get?_settleSide (f : BoxFamily) (style settled : StyleObject) (side : BoxPart)
    (k : String) : (f.settleSide style settled side).get? k =
      if k = f.key side then (settled.get? k).or (f.inherited? style side)
      else settled.get? k := by
  unfold settleSide
  by_cases hc : settled.contains (f.key side) = true
  · obtain ⟨v, hv⟩ := Option.isSome_iff_exists.1 hc
    rw [if_pos hc]
    split
    · rename_i hk; rw [hk, hv]; rfl
    · rfl
  · have hn : settled.get? (f.key side) = none := by simpa [OrderedMap.contains] using hc
    rw [if_neg hc]
    cases hi : f.inherited? style side with
    | none => simp
    | some v =>
      simp only [OrderedMap.get?_insert]
      by_cases hk : k = f.key side
      · simp [hk, hn]
      · simp [hk, Ne.symm hk]

theorem get?_foldl_settleSide_of_not_mem (f : BoxFamily) (style : StyleObject) {k : String} :
    ∀ (sides : List BoxPart) (settled : StyleObject), k ∉ sides.map f.key →
      (sides.foldl (f.settleSide style) settled).get? k = settled.get? k
  | [], _, _ => rfl
  | side :: rest, settled, h => by
    simp only [List.map_cons, List.mem_cons, not_or] at h
    rw [List.foldl_cons, get?_foldl_settleSide_of_not_mem f style rest _ h.2, get?_settleSide,
      if_neg h.1]

theorem get?_foldl_settleSide_of_mem (f : BoxFamily) (style : StyleObject) {side : BoxPart} :
    ∀ (sides : List BoxPart) (settled : StyleObject), side ∈ sides →
      (sides.foldl (f.settleSide style) settled).get? (f.key side) =
        (settled.get? (f.key side)).or (f.inherited? style side)
  | first :: rest, settled, h => by
    have hstep := get?_settleSide f style settled first (f.key side)
    rw [List.foldl_cons]
    by_cases hr : side ∈ rest
    · rw [get?_foldl_settleSide_of_mem f style rest _ hr, hstep]
      split
      · rename_i hk
        rw [(key_inj hk).2, Option.or_assoc, Option.or_self]
      · rfl
    · have hs : side = first := (List.mem_cons.1 h).resolve_right hr
      subst hs
      have hk : f.key side ∉ rest.map f.key := by simpa using hr
      rw [get?_foldl_settleSide_of_not_mem f style rest _ hk, hstep, if_pos rfl]

theorem get?_settle_side (f : BoxFamily) (style : StyleObject) {side : BoxPart}
    (h : side ∈ BoxPart.all.sides) :
    (f.settle style).get? (f.key side) = f.covering? style side := by
  have hside : f.key side ∉ BoxPart.shorthands.map f.key := by
    cases side <;> simp_all [BoxPart.sides, BoxPart.shorthands]
  rw [settle_eq_foldl, get?_foldl_settleSide_of_mem f style _ _ h, get?_withoutShorthands,
    if_neg hside]
  rfl

theorem get?_settle_shorthand (f : BoxFamily) (style : StyleObject) {part : BoxPart}
    (h : part ∈ BoxPart.shorthands) : (f.settle style).get? (f.key part) = none := by
  have hpart : f.key part ∉ BoxPart.all.sides.map f.key := by
    cases part <;> simp_all [BoxPart.sides, BoxPart.shorthands]
  rw [settle_eq_foldl, get?_foldl_settleSide_of_not_mem f style _ _ hpart, get?_withoutShorthands,
    if_pos (List.mem_map_of_mem h)]

theorem get?_settle_other (f : BoxFamily) (style : StyleObject) {k : String}
    (h : ∀ part, k ≠ f.key part) : (f.settle style).get? k = style.get? k := by
  have hmem : ∀ parts : List BoxPart, k ∉ parts.map f.key := by
    intro parts hk
    obtain ⟨part, -, e⟩ := List.mem_map.1 hk
    exact h part e.symm
  rw [settle_eq_foldl, get?_foldl_settleSide_of_not_mem f style _ _ (hmem _),
    get?_withoutShorthands, if_neg (hmem _)]

end BoxFamily

namespace SheetRegistry

open BoxFamily

/-! ## Flattened lists -/

theorem get?_flatten_append (r : SheetRegistry) (a b : List StyleEntry) (k : String) :
    (r.flatten (a ++ b)).get? k = ((r.flatten b).get? k).or ((r.flatten a).get? k) := by
  simp only [flatten, OrderedMap.get?_ofList, List.filterMap_append, List.flatMap_append,
    List.reverse_append, Entries.find?_append]

theorem get?_flatten_of_style? (r : SheetRegistry) {e : StyleEntry} {style : StyleObject}
    (h : r.style? e = some style) (k : String) :
    (r.flatten [e]).get? k = (style.get? k).filter (· ≠ .null) := by
  have hset : ((setEntries style).map Prod.fst).Nodup :=
    (List.filter_sublist.map Prod.fst).nodup style.nodup
  rw [flatten, List.filterMap_cons_some h, List.filterMap_nil, List.flatMap_cons,
    List.flatMap_nil, List.append_nil, OrderedMap.get?_ofList,
    Entries.find?_perm (List.reverse_perm _)
      ((((List.reverse_perm _).map Prod.fst).nodup_iff).2 hset)]
  exact Entries.find?_filter (fun e => decide (e.2 ≠ .null)) style.nodup

theorem flatten_nil (r : SheetRegistry) : r.flatten [] = .empty := rfl

/-! ## Resolved lists -/

theorem resolve_eq_settle (r : SheetRegistry) (list : List StyleEntry) :
    r.resolve list = margin.settle (padding.settle (r.flatten list)) := by
  simp only [resolve, families, List.foldl_cons, List.foldl_nil]

theorem get?_resolve_side (r : SheetRegistry) (list : List StyleEntry) (f : BoxFamily)
    {side : BoxPart} (h : side ∈ BoxPart.all.sides) :
    (r.resolve list).get? (f.key side) = f.covering? (r.flatten list) side := by
  rw [resolve_eq_settle]
  cases f with
  | padding => rw [get?_settle_other margin _ (by simp), get?_settle_side padding _ h]
  | margin =>
    rw [get?_settle_side margin _ h]
    exact covering?_congr (fun part => get?_settle_other padding _ (by simp)) side

theorem get?_resolve_shorthand (r : SheetRegistry) (list : List StyleEntry) (f : BoxFamily)
    {part : BoxPart} (h : part ∈ BoxPart.shorthands) :
    (r.resolve list).get? (f.key part) = none := by
  rw [resolve_eq_settle]
  cases f with
  | padding => rw [get?_settle_other margin _ (by simp), get?_settle_shorthand padding _ h]
  | margin => rw [get?_settle_shorthand margin _ h]

theorem get?_resolve_other (r : SheetRegistry) (list : List StyleEntry) {k : String}
    (h : ∀ (f : BoxFamily) (part : BoxPart), k ≠ f.key part) :
    (r.resolve list).get? k = (r.flatten list).get? k := by
  rw [resolve_eq_settle, get?_settle_other margin _ (h margin),
    get?_settle_other padding _ (h padding)]

/-- Resolving depends on a list only through its flattened style. -/
theorem resolve_sameAs {r s : SheetRegistry} {a b : List StyleEntry}
    (h : (r.flatten a).SameAs (s.flatten b)) : (r.resolve a).SameAs (s.resolve b) := by
  intro k
  rcases name_cases k with ⟨f, side, hs, rfl⟩ | ⟨f, part, hp, rfl⟩ | hk
  · rw [get?_resolve_side r a f hs, get?_resolve_side s b f hs]
    exact covering?_congr (fun part => h (f.key part)) side
  · rw [get?_resolve_shorthand r a f hp, get?_resolve_shorthand s b f hp]
  · rw [get?_resolve_other r a hk, get?_resolve_other s b hk, h k]

end SheetRegistry

end TemplateStyles
