import TemplateStyles.Proofs.Render.Overlays
/-!
# Null values in overlays

A `null` leaves a property unset, so one would expect that it can be taken out of a style. But
shorthands are expanded before that: where the most specific property for a side is `null`, the side
gets nothing, and without the `null` it would get what a less specific property sets
(`Overlay.hidden?`). Main result `resolve_withoutNulls_iff`: taking the `null` values out of all
overlays of a list changes nothing just if each hidden value that would be the last one for its side
is what the rest of the list gives the side; `resolve_withoutNulls_lost` is a style with a side that
is lost.
-/
namespace TemplateStyles

open BoxFamily

/-! ## The last member with a value -/

section

variable {α β : Type} {g : α → Option β} {before after : List α} {a : α}

theorem findSome?_reverse_of_last {v : β} (ha : g a = some v)
    (hafter : ∀ b ∈ after, g b = none) :
    (before ++ a :: after).reverse.findSome? g = some v := by
  have hnone : after.reverse.findSome? g = none := by simpa using hafter
  simp [List.findSome?_append, hnone, ha]

theorem findSome?_reverse_of_none (ha : g a = none) :
    (before ++ a :: after).reverse.findSome? g = (before ++ after).reverse.findSome? g := by
  simp [List.findSome?_append, ha]

theorem exists_last_of_findSome?_reverse {l : List α} {v : β}
    (h : l.reverse.findSome? g = some v) :
    ∃ before a after, l = before ++ a :: after ∧ g a = some v ∧ ∀ b ∈ after, g b = none := by
  obtain ⟨later, a, earlier, hl, ha, hlater⟩ := List.findSome?_eq_some_iff.1 h
  refine ⟨earlier.reverse, a, later.reverse, ?_, ha, by simpa using hlater⟩
  rw [← l.reverse_reverse, hl]
  simp

/-- Where `g'` finds what `g` finds and more, the results are the same just if the last value of
`g'`, when `g` misses it, is what `g` finds without it. -/
theorem or_findSome?_reverse_eq_iff {g' : α → Option β} {l : List α}
    (h : ∀ a ∈ l, g a = none ∨ g a = g' a) (o : Option β) :
    (l.reverse.findSome? g').or o = (l.reverse.findSome? g).or o ↔
      ∀ before a after v, l = before ++ a :: after → g a = none → g' a = some v →
        (∀ b ∈ after, g' b = none) → ((before ++ after).reverse.findSome? g).or o = some v := by
  constructor
  · rintro heq before a after v rfl ha ha' hafter
    rw [findSome?_reverse_of_last ha' hafter, findSome?_reverse_of_none ha, Option.some_or] at heq
    exact heq.symm
  · intro hall
    cases hlast : l.reverse.findSome? g' with
    | none =>
      have hnone' : ∀ a ∈ l, g' a = none := by simpa using hlast
      have hnone : l.reverse.findSome? g = none := by
        simpa using fun a ha => (h a ha).elim id (·.trans (hnone' a ha))
      rw [hnone]
    | some v =>
      obtain ⟨before, a, after, rfl, ha', hafter⟩ := exists_last_of_findSome?_reverse hlast
      rcases h a (by simp) with ha | ha
      · rw [findSome?_reverse_of_none ha, hall before a after v rfl ha ha' hafter, Option.some_or]
      · have hafter : ∀ b ∈ after, g b = none := fun b hb =>
          (h b (by simp [hb])).elim id (·.trans (hafter b hb))
        rw [findSome?_reverse_of_last (ha.trans ha') hafter]

end

/-! ## Styles without null values -/

namespace StyleObject

/-- The style without the properties that are `null`. -/
def withoutNulls (style : StyleObject) : StyleObject := style.filter fun _ v => v ≠ .null

/-- The value that a side would have if the most specific property for it were not `null`. -/
def hidden? (f : BoxFamily) (style : StyleObject) (side : BoxPart) : Option Json :=
  if f.covering? style side = some .null then f.covering? style.withoutNulls side else none

theorem get?_withoutNulls (style : StyleObject) (k : String) :
    style.withoutNulls.get? k = style.setting? k :=
  OrderedMap.get?_filter style (fun _ v => v ≠ .null) k

theorem hasNoNull_withoutNulls (style : StyleObject) : style.withoutNulls.HasNoNull :=
  hasNoNull_of_get? fun k => by simp [get?_withoutNulls, setting?, Option.filter_eq_some_iff]

theorem setting?_withoutNulls (style : StyleObject) (k : String) :
    style.withoutNulls.setting? k = style.setting? k := by
  rw [setting?, get?_withoutNulls, setting?, Option.filter_filter]
  simp

/-- A side keeps its value, unless that is `null`. -/
theorem covering?_withoutNulls (f : BoxFamily) (style : StyleObject) (side : BoxPart) :
    (f.covering? style.withoutNulls side = f.covering? style side ∧
      hidden? f style side = none) ∨
    (f.covering? style side = some .null ∧
      hidden? f style side = f.covering? style.withoutNulls side) := by
  by_cases hnull : f.covering? style side = some .null
  · exact .inr ⟨hnull, if_pos hnull⟩
  · refine .inl ⟨?_, if_neg hnull⟩
    revert hnull
    simp only [covering?, inherited?, get?_withoutNulls, setting?]
    cases hs : style.get? (f.key side) with
    | some v => intro hv; simp_all [Option.filter]
    | none =>
      cases ha : style.get? (f.key side.axis) with
      | some v => intro hv; simp_all [Option.filter]
      | none =>
        cases hw : style.get? (f.key .all) with
        | some v => intro hv; simp_all [Option.filter]
        | none => intro _; rfl

end StyleObject

/-! ## Overlays without null values -/

mutual

/-- A caller's style without the properties of its objects that are `null`. -/
def Json.withoutNulls : Json → Json
  | .arr items => .arr (Json.withoutNullsAmong items)
  | .obj members => .object (StyleObject.withoutNulls (.ofList members))
  | .num n => .num n
  | .str s => .str s
  | .bool b => .bool b
  | .null => .null

def Json.withoutNullsAmong : List Json → List Json
  | [] => []
  | x :: r => Json.withoutNulls x :: Json.withoutNullsAmong r

end

namespace Overlay

def withoutNulls : Overlay → Overlay
  | patch style => patch style.withoutNulls
  | object style => object style.withoutNulls
  | named id => named id

/-- The value of a side that a `null` in the overlay stands before. -/
def hidden? (f : BoxFamily) (side : BoxPart) : Overlay → Option Json
  | patch style => ((style.hidden? f side).map Json.typed).filter (· ≠ .null)
  | object style => style.hidden? f side
  | named _ => none

variable (r : SheetRegistry)

/-- Beside the sides, the properties of an overlay stay what they are. -/
theorem gives?_withoutNulls_of_not_isSide {k : String} (hk : ¬ IsSide k) (o : Overlay) :
    o.withoutNulls.gives? r k = o.gives? r k := by
  rcases name_cases k with ⟨f, side, hs, rfl⟩ | ⟨f, part, hp, rfl⟩ | hother
  · exact absurd ⟨f, side, hs, rfl⟩ hk
  · cases o with
    | named id => rfl
    | object style =>
      rw [withoutNulls, gives?_object_shorthand r _ f hp, gives?_object_shorthand r _ f hp]
    | patch style =>
      rw [withoutNulls, gives?_patch, gives?_patch, gives?_object_shorthand r _ f hp,
        gives?_object_shorthand r _ f hp]
  · cases o with
    | named id => rfl
    | object style =>
      rw [withoutNulls, gives?_object_other r _ hother, gives?_object_other r _ hother,
        StyleObject.setting?_withoutNulls]
    | patch style =>
      rw [withoutNulls, gives?_patch, gives?_patch, gives?_object_other r _ hother,
        gives?_object_other r _ hother, StyleObject.setting?, StyleObject.setting?,
        StyleObject.get?_typed, StyleObject.get?_typed, StyleObject.get?_withoutNulls,
        StyleObject.setting?]
      cases style.get? k with
      | none => rfl
      | some v => by_cases hv : v = .null <;> simp [Option.filter, hv, Json.typed]

/-- A side gets what it got, or it gets the value that was hidden and got nothing before. -/
theorem gives?_withoutNulls_side (f : BoxFamily) {side : BoxPart} (hs : side ∈ BoxPart.all.sides)
    (o : Overlay) :
    (o.withoutNulls.gives? r (f.key side) = o.gives? r (f.key side) ∧ o.hidden? f side = none) ∨
    (o.gives? r (f.key side) = none ∧
      o.withoutNulls.gives? r (f.key side) = o.hidden? f side) := by
  cases o with
  | named id => exact .inl ⟨rfl, rfl⟩
  | object style =>
    rw [withoutNulls, gives?_object_side r _ f hs, gives?_object_side r _ f hs, hidden?]
    rcases StyleObject.covering?_withoutNulls f style side with ⟨hkept, hnone⟩ | ⟨hnull, hhidden⟩
    · exact .inl ⟨by rw [hkept], hnone⟩
    · refine .inr ⟨by rw [hnull]; rfl, ?_⟩
      rw [hhidden, ← StyleObject.get?_expand_side _ f hs]
      exact (StyleObject.hasNoNull_withoutNulls style).expand.filter_get? _
  | patch style =>
    rw [withoutNulls, gives?_patch, gives?_patch, gives?_object_side r _ f hs,
      gives?_object_side r _ f hs, covering?_typed, covering?_typed, hidden?]
    rcases StyleObject.covering?_withoutNulls f style side with ⟨hkept, hnone⟩ | ⟨hnull, hhidden⟩
    · exact .inl ⟨by rw [hkept], by rw [hnone]; rfl⟩
    · exact .inr ⟨by rw [hnull]; simp [Json.typed], by rw [hhidden]⟩

theorem gives?_or (f : BoxFamily) {side : BoxPart} (hs : side ∈ BoxPart.all.sides) (o : Overlay) :
    o.gives? r (f.key side) = none ∨
      o.gives? r (f.key side) = o.withoutNulls.gives? r (f.key side) :=
  (gives?_withoutNulls_side r f hs o).elim (fun h => .inr h.1.symm) (fun h => .inl h.1)

theorem hidden?_eq_some_iff (f : BoxFamily) {side : BoxPart} (hs : side ∈ BoxPart.all.sides)
    (o : Overlay) {v : Json} : o.hidden? f side = some v ↔
      o.gives? r (f.key side) = none ∧ o.withoutNulls.gives? r (f.key side) = some v := by
  rcases gives?_withoutNulls_side r f hs o with ⟨hsame, hnone⟩ | ⟨hnone, hhidden⟩
  · rw [hsame, hnone]
    exact ⟨fun h => absurd h (by simp), fun h => absurd (h.1.symm.trans h.2) (by simp)⟩
  · rw [hnone, hhidden]
    exact ⟨fun h => ⟨rfl, h⟩, fun h => h.2⟩

/-- What has hidden values gives no shorthand. -/
theorem gives?_shorthand_of_hidden? {f g : BoxFamily} {side part : BoxPart}
    (hp : part ∈ BoxPart.shorthands) {o : Overlay} {v : Json} (h : o.hidden? f side = some v) :
    o.gives? r (g.key part) = none := by
  cases o with
  | named id => simp [hidden?] at h
  | object style => exact gives?_object_shorthand r style g hp
  | patch style => exact gives?_object_shorthand r style.typed g hp

end Overlay

/-! ## Lists without null values -/

mutual

theorem Json.leaves_withoutNulls : ∀ v : Json, v.withoutNulls.leaves = v.leaves.map Json.withoutNulls
  | .arr items => by
    rw [Json.withoutNulls, Json.leaves, Json.leaves, Json.leavesAmong_withoutNulls items]
  | .obj members => rfl
  | .num n => rfl
  | .str s => rfl
  | .bool b => rfl
  | .null => rfl

theorem Json.leavesAmong_withoutNulls : ∀ items : List Json,
    Json.leavesAmong (Json.withoutNullsAmong items) =
      (Json.leavesAmong items).map Json.withoutNulls
  | [] => rfl
  | x :: r => by
    rw [Json.withoutNullsAmong, Json.leavesAmong, Json.leavesAmong, List.map_append,
      Json.leaves_withoutNulls x, Json.leavesAmong_withoutNulls r]

end

theorem Json.overlay?_withoutNulls (v : Json) :
    v.withoutNulls.overlay? = v.overlay?.map Overlay.withoutNulls := by
  cases v with
  | obj members => exact Json.overlay?_object _
  | num n =>
    cases n with
    | int n =>
      rw [Json.withoutNulls, Json.overlay?]
      split <;> rfl
    | double negative m => rfl
  | arr items => rfl
  | str s => rfl
  | bool b => rfl
  | null => rfl

theorem overlays_withoutNulls (patch : Option StyleObject) (external : Option Json) :
    overlays (patch.map StyleObject.withoutNulls) (external.map Json.withoutNulls) =
      (overlays patch external).map Overlay.withoutNulls := by
  have hleaves : ∀ v : Json, v.withoutNulls.overlays = v.overlays.map Overlay.withoutNulls := by
    intro v
    rw [Json.overlays, Json.overlays, Json.leaves_withoutNulls, List.filterMap_map,
      List.map_filterMap]
    exact List.filterMap_congr fun leaf _ => Json.overlay?_withoutNulls leaf
  rw [overlays, overlays, List.map_append]
  cases patch <;> cases external <;> simp [hleaves, Overlay.withoutNulls]

namespace SheetRegistry

/-- Taking out an overlay with a hidden value changes no shorthand. -/
theorem inherited?_flatten_without (r : SheetRegistry) (list : List StyleEntry)
    {before after : List Overlay} {o : Overlay} {f : BoxFamily} {side : BoxPart} {v : Json}
    (h : o.hidden? f side = some v) :
    f.inherited? (r.flatten (list ++ (before ++ after).map Overlay.entry)) side =
      f.inherited? (r.flatten (list ++ (before ++ o :: after).map Overlay.entry)) side := by
  refine inherited?_congr (fun part hp => ?_) side
  rw [get?_flatten_overlays, get?_flatten_overlays,
    findSome?_reverse_of_none (g := fun o : Overlay => o.gives? r (f.key part))
      (Overlay.gives?_shorthand_of_hidden? r hp h)]

theorem get?_flatten_withoutNulls (r : SheetRegistry) (list : List StyleEntry)
    (os : List Overlay) {k : String} (hk : ¬ IsSide k) :
    (r.flatten (list ++ (os.map Overlay.withoutNulls).map Overlay.entry)).get? k =
      (r.flatten (list ++ os.map Overlay.entry)).get? k := by
  rw [get?_flatten_overlays, get?_flatten_overlays, ← List.map_reverse, List.findSome?_map]
  simp only [Function.comp_def, Overlay.gives?_withoutNulls_of_not_isSide r hk]

/-- When one side keeps its value. -/
theorem get?_resolve_withoutNulls_iff (r : SheetRegistry) (list : List StyleEntry)
    (os : List Overlay) (f : BoxFamily) {side : BoxPart} (hs : side ∈ BoxPart.all.sides) :
    (r.resolve (list ++ (os.map Overlay.withoutNulls).map Overlay.entry)).get? (f.key side) =
      (r.resolve (list ++ os.map Overlay.entry)).get? (f.key side) ↔
    ∀ before o after v, os = before ++ o :: after → o.hidden? f side = some v →
      (∀ later ∈ after, later.withoutNulls.gives? r (f.key side) = none) →
      (r.resolve (list ++ (before ++ after).map Overlay.entry)).get? (f.key side) = some v := by
  have hshort : f.inherited? (r.flatten (list ++ (os.map Overlay.withoutNulls).map Overlay.entry))
      side = f.inherited? (r.flatten (list ++ os.map Overlay.entry)) side :=
    inherited?_congr (fun _ hp => get?_flatten_withoutNulls r list os (f.not_isSide_shorthand hp))
      side
  rw [get?_resolve_overlays_side r list _ f hs, get?_resolve_overlays_side r list _ f hs, hshort,
    ← List.map_reverse, List.findSome?_map]
  refine (or_findSome?_reverse_eq_iff (fun o _ => Overlay.gives?_or r f hs o) _).trans ?_
  constructor
  · rintro h before o after v rfl hv hafter
    obtain ⟨hnone, hsome⟩ := (Overlay.hidden?_eq_some_iff r f hs o).1 hv
    rw [get?_resolve_overlays_side r list _ f hs, inherited?_flatten_without r list hv]
    exact h before o after v rfl hnone hsome hafter
  · rintro h before o after v rfl hnone hsome hafter
    have hv := (Overlay.hidden?_eq_some_iff r f hs o).2 ⟨hnone, hsome⟩
    rw [← inherited?_flatten_without r list hv, ← get?_resolve_overlays_side r list _ f hs]
    exact h before o after v rfl hv hafter

/-- **When null values can be taken out.** In the patch and in the objects of the caller's style a
`null` leaves its property unset, but on a side of a box it also hides what a less specific property
of the same overlay would set. Taking the `null` values out of all overlays never changes any other
property. The list resolves to the same style just if no hidden value makes a difference: whenever
no overlay behind it gives the side a value, the side has the hidden value in the rest of the list
anyway. -/
theorem resolve_withoutNulls_iff (r : SheetRegistry) (compiled : Option CompiledStyles)
    (keys : List String) (patch : Option StyleObject) (external : Option Json) :
    let before := r.resolve (styleList compiled keys patch external)
    let after := r.resolve (styleList compiled keys (patch.map StyleObject.withoutNulls)
      (external.map Json.withoutNulls))
    (∀ k, ¬ IsSide k → after.get? k = before.get? k) ∧
    (after.SameAs before ↔
      ∀ (f : BoxFamily), ∀ side ∈ BoxPart.all.sides, ∀ earlier o later v,
        overlays patch external = earlier ++ o :: later → o.hidden? f side = some v →
        (∀ o' ∈ later, o'.withoutNulls.gives? r (f.key side) = none) →
        (r.resolve (staticEntries compiled keys ++ (earlier ++ later).map Overlay.entry)).get?
          (f.key side) = some v) := by
  intro before after
  have hbefore : before = r.resolve (staticEntries compiled keys ++
      (overlays patch external).map Overlay.entry) := r.resolve_styleList_overlays ..
  have hafter : after = r.resolve (staticEntries compiled keys ++
      ((overlays patch external).map Overlay.withoutNulls).map Overlay.entry) := by
    rw [← overlays_withoutNulls]
    exact r.resolve_styleList_overlays ..
  rw [hbefore, hafter]
  have hother := fun k (hk : ¬ IsSide k) => r.get?_resolve_of_not_isSide hk fun _ =>
    get?_flatten_withoutNulls r (staticEntries compiled keys) (overlays patch external) hk
  refine ⟨hother, fun hsame f side hs => ?_, fun h => sameAs_of_sides hother fun f side hs => ?_⟩
  · exact (get?_resolve_withoutNulls_iff r _ _ f hs).1 (hsame _)
  · exact (get?_resolve_withoutNulls_iff r _ _ f hs).2 (h f side hs)

/-- The left side is `null` beside a value for the whole box: it gets nothing, and without the
`null` it gets the value of the box. -/
theorem resolve_withoutNulls_lost :
    let external : Json := .obj [("padding", .num (.int 1)), ("paddingLeft", .null)]
    let list := fun e : Json => styleList none [] none (some e)
    external.withoutNulls = .obj [("padding", .num (.int 1))] ∧
      (empty.resolve (list external)).get? "paddingLeft" = none ∧
      (empty.resolve (list external.withoutNulls)).get? "paddingLeft" = some (.num (.int 1)) ∧
      ¬ (empty.resolve (list external.withoutNulls)).SameAs (empty.resolve (list external)) := by
  intro external list
  have hwith : (empty.resolve (list external)).get? "paddingLeft" = none := by decide +kernel
  have hwithout : (empty.resolve (list external.withoutNulls)).get? "paddingLeft" =
      some (.num (.int 1)) := by decide +kernel
  refine ⟨by decide +kernel, hwith, hwithout, fun hsame => ?_⟩
  have hleft := hsame "paddingLeft"
  rw [hwith, hwithout] at hleft
  exact absurd hleft (by decide)

end SheetRegistry

end TemplateStyles
