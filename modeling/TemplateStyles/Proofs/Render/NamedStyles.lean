import Mathlib.Data.List.Forall2
import TemplateStyles.Proofs.Render.Overlays
/-!
# Styles by number and inline

A caller can name a registered style by its number or write it out. Written out its shorthands are
expanded, and named by its number they are not, so that they lose against every side that has a
value of its own. Main result `resolve_inlined_iff`: writing out the styles that some numbers name
changes no list just if each of these styles sets by itself every side that its shorthands cover;
`resolve_inlined_lost` is a list that changes.
-/
namespace TemplateStyles

open BoxFamily

/-! ## Numbers that are written out -/

mutual

/-- A caller's style, and the same with some of the numbers among `ids` written out as the styles
that they name, in lists at any depth. -/
inductive Json.Inlined (r : SheetRegistry) (ids : Nat → Prop) : Json → Json → Prop where
  | kept (v : Json) : Json.Inlined r ids v v
  | written {id : Nat} {style : StyleObject} (hid : ids id)
      (h : r.named? (.num (.int id)) = some style) :
      Json.Inlined r ids (.num (.int id)) (.object style)
  | list {items items' : List Json} (h : Json.InlinedAmong r ids items items') :
      Json.Inlined r ids (.arr items) (.arr items')

inductive Json.InlinedAmong (r : SheetRegistry) (ids : Nat → Prop) :
    List Json → List Json → Prop where
  | nil : Json.InlinedAmong r ids [] []
  | cons {v v' : Json} {items items' : List Json} (h : Json.Inlined r ids v v')
      (hitems : Json.InlinedAmong r ids items items') :
      Json.InlinedAmong r ids (v :: items) (v' :: items')

end

/-- The same for one overlay. -/
inductive Overlay.Inlined (r : SheetRegistry) (ids : Nat → Prop) : Overlay → Overlay → Prop where
  | kept (o : Overlay) : Overlay.Inlined r ids o o
  | written {id : Nat} {style : StyleObject} (hid : ids id)
      (h : r.named? (.num (.int id)) = some style) :
      Overlay.Inlined r ids (.named id) (.object style)

section

variable {r : SheetRegistry} {id : Nat} {style : StyleObject}

theorem SheetRegistry.named?_eq_some_iff : r.named? (.num (.int id)) = some style ↔
    (0 ≤ (id : Int) ∧ (id : Int) ≤ maxStyleId) ∧ r.get? id = some style := by
  rw [named?, Option.ite_none_right_eq_some, Int.toNat_natCast]

theorem Json.overlays_of_named? (h : r.named? (.num (.int id)) = some style) :
    (Json.num (.int id)).overlays = [.named id] := by
  have hoverlay : (Json.num (.int id)).overlay? = some (.named id) :=
    if_pos (SheetRegistry.named?_eq_some_iff.1 h).1
  rw [Json.overlays, Json.leaves, List.filterMap_cons_some hoverlay, List.filterMap_nil]

theorem Overlay.gives?_of_named? (h : r.named? (.num (.int id)) = some style) (k : String) :
    (named id).gives? r k = style.setting? k :=
  gives?_named r (SheetRegistry.named?_eq_some_iff.1 h).2 k

end

mutual

theorem Json.Inlined.overlays {r : SheetRegistry} {ids : Nat → Prop} : ∀ {v v' : Json},
    Json.Inlined r ids v v' → List.Forall₂ (Overlay.Inlined r ids) v.overlays v'.overlays
  | _, _, .kept v => List.forall₂_same.2 fun o _ => .kept o
  | _, _, .written hid h => by
    rw [Json.overlays_of_named? h, Json.overlays_object]
    exact .cons (.written hid h) .nil
  | _, _, .list h => by
    simpa only [Json.overlays, Json.leaves] using h.overlays

theorem Json.InlinedAmong.overlays {r : SheetRegistry} {ids : Nat → Prop} :
    ∀ {items items' : List Json}, Json.InlinedAmong r ids items items' →
      List.Forall₂ (Overlay.Inlined r ids) ((Json.leavesAmong items).filterMap Json.overlay?)
        ((Json.leavesAmong items').filterMap Json.overlay?)
  | _, _, .nil => .nil
  | _, _, .cons h hitems => by
    rw [Json.leavesAmong, Json.leavesAmong, List.filterMap_append, List.filterMap_append]
    exact List.rel_append h.overlays hitems.overlays

end

/-! ## Styles that set their own sides -/

/-- Every side that a shorthand of the style gives a value has a value of its own. -/
def StyleObject.OwnSides (style : StyleObject) : Prop :=
  ∀ (f : BoxFamily), ∀ side ∈ BoxPart.all.sides, ∀ part ∈ [side.axis, .all],
    style.setting? (f.key part) ≠ none → style.setting? (f.key side) ≠ none

/-- The styles that the numbers name are of this kind. -/
def SheetRegistry.HaveOwnSides (r : SheetRegistry) (ids : Nat → Prop) : Prop :=
  ∀ (id : Nat) (style : StyleObject), ids id → r.named? (.num (.int id)) = some style →
    style.OwnSides

/-- A side's own value counts first. -/
theorem filter_covering?_of_setting? {f : BoxFamily} {style : StyleObject} {side : BoxPart}
    {v : Json} (h : style.setting? (f.key side) = some v) :
    (f.covering? style side).filter (· ≠ .null) = some v := by
  obtain ⟨hv, hnull⟩ := Option.filter_eq_some_iff.1 h
  rw [covering?, hv, Option.some_or, Option.filter_some, if_pos hnull]

/-- Without any value for a side there is none that covers it. -/
theorem filter_covering?_eq_none {f : BoxFamily} {style : StyleObject} {side : BoxPart}
    (hside : style.setting? (f.key side) = none)
    (hpart : ∀ part ∈ [side.axis, .all], style.setting? (f.key part) = none) :
    (f.covering? style side).filter (· ≠ .null) = none := by
  have haxis := hpart side.axis (by simp)
  have hall := hpart .all (by simp)
  simp only [StyleObject.setting?] at hside haxis hall
  rw [covering?, inherited?]
  cases hs : style.get? (f.key side) with
  | some v => rwa [Option.some_or, ← hs]
  | none =>
    cases ha : style.get? (f.key side.axis) with
    | some v => rwa [Option.none_or, Option.some_or, ← ha]
    | none => rwa [Option.none_or, Option.none_or]

theorem StyleObject.OwnSides.filter_covering? {style : StyleObject} (h : style.OwnSides)
    (f : BoxFamily) {side : BoxPart} (hs : side ∈ BoxPart.all.sides) :
    (f.covering? style side).filter (· ≠ .null) = style.setting? (f.key side) := by
  cases hside : style.setting? (f.key side) with
  | some v => exact filter_covering?_of_setting? hside
  | none =>
    refine filter_covering?_eq_none hside fun part hpart => ?_
    by_contra hne
    exact h f side hs part hpart hne hside

namespace Overlay

variable {r : SheetRegistry} {ids : Nat → Prop} {o o' : Overlay}

theorem Inlined.gives?_side (h : Overlay.Inlined r ids o o') (hids : r.HaveOwnSides ids)
    (f : BoxFamily) {side : BoxPart} (hs : side ∈ BoxPart.all.sides) :
    o'.gives? r (f.key side) = o.gives? r (f.key side) := by
  cases h with
  | kept => rfl
  | @written id style hid h =>
    rw [gives?_object_side r style f hs, gives?_of_named? h,
      (hids id style hid h).filter_covering? f hs]

theorem Inlined.gives?_other (h : Overlay.Inlined r ids o o') {k : String}
    (hk : ∀ (f : BoxFamily) (part : BoxPart), k ≠ f.key part) :
    o'.gives? r k = o.gives? r k := by
  cases h with
  | kept => rfl
  | @written id style hid h => rw [gives?_object_other r style hk, gives?_of_named? h]

/-- A style that leaves a side alone gives it nothing by its shorthands either. -/
theorem Inlined.gives?_shorthand (h : Overlay.Inlined r ids o o') (hids : r.HaveOwnSides ids)
    {f : BoxFamily} {side : BoxPart} (hs : side ∈ BoxPart.all.sides)
    (hside : o.gives? r (f.key side) = none) {part : BoxPart}
    (hpart : part ∈ [side.axis, .all]) :
    o'.gives? r (f.key part) = o.gives? r (f.key part) := by
  cases h with
  | kept => rfl
  | @written id style hid h =>
    have hshort : part ∈ BoxPart.shorthands := by
      rcases List.mem_pair.1 hpart with rfl | rfl
      · exact side.axis_mem_shorthands
      · decide
    rw [gives?_of_named? h] at hside ⊢
    rw [gives?_object_shorthand r style f hshort]
    by_contra hne
    exact hids id style hid h f side hs part hpart (Ne.symm hne) hside

end Overlay

/-! ## Lists with styles that are written out -/

/-- Two rows find the same from the end if their members do. -/
theorem findSome?_reverse_congr {α β : Type} {R : α → α → Prop} {g : α → Option β}
    {l l' : List α} (h : List.Forall₂ R l l') (hg : ∀ a ∈ l, ∀ b, R a b → g b = g a) :
    l'.reverse.findSome? g = l.reverse.findSome? g := by
  induction h with
  | nil => rfl
  | @cons a b l l' hab _ ih =>
    rw [List.reverse_cons, List.reverse_cons, List.findSome?_append, List.findSome?_append,
      ih fun a ha => hg a (List.mem_cons_of_mem _ ha), List.findSome?_singleton,
      List.findSome?_singleton, hg a (List.mem_cons_self ..) b hab]

namespace SheetRegistry

variable (r : SheetRegistry)

theorem get?_resolve_overlays_inlined {ids : Nat → Prop} {os os' : List Overlay}
    (h : List.Forall₂ (Overlay.Inlined r ids) os os') (list : List StyleEntry) {k : String}
    (hk : ¬ IsSide k) : (r.resolve (list ++ os'.map Overlay.entry)).get? k =
      (r.resolve (list ++ os.map Overlay.entry)).get? k :=
  r.get?_resolve_of_not_isSide hk fun hother => by
    rw [get?_flatten_overlays, get?_flatten_overlays,
      findSome?_reverse_congr h fun o _ o' ho => ho.gives?_other hother]

theorem resolve_overlays_inlined {ids : Nat → Prop} {os os' : List Overlay}
    (h : List.Forall₂ (Overlay.Inlined r ids) os os')
    (hids : r.HaveOwnSides ids) (list : List StyleEntry) :
    (r.resolve (list ++ os'.map Overlay.entry)).SameAs
      (r.resolve (list ++ os.map Overlay.entry)) := by
  refine sameAs_of_sides (fun k hk => get?_resolve_overlays_inlined r h list hk)
    fun f side hs => ?_
  rw [get?_resolve_overlays_side r list _ f hs, get?_resolve_overlays_side r list _ f hs,
    findSome?_reverse_congr h fun o _ o' ho => ho.gives?_side hids f hs]
  cases hlast : os.reverse.findSome? (·.gives? r (f.key side)) with
  | some v => rfl
  | none =>
    -- no overlay gives the side a value, so none of them gives one to its shorthands only
    have hnone : ∀ o ∈ os, o.gives? r (f.key side) = none := by simpa using hlast
    have hpart : ∀ part ∈ [side.axis, .all],
        (r.flatten (list ++ os'.map Overlay.entry)).get? (f.key part) =
          (r.flatten (list ++ os.map Overlay.entry)).get? (f.key part) := by
      intro part hpart
      rw [get?_flatten_overlays, get?_flatten_overlays, findSome?_reverse_congr h
        fun o ho o' hoo => hoo.gives?_shorthand hids hs (hnone o ho) hpart]
    rw [inherited?, inherited?, hpart _ (by simp), hpart .all (by simp)]

/-- A side in a list that is a caller's style alone. -/
theorem get?_resolve_external_side (v : Json) (f : BoxFamily) {side : BoxPart}
    (hs : side ∈ BoxPart.all.sides) :
    (r.resolve (styleList none [] none (some v))).get? (f.key side) =
      (v.overlays.reverse.findSome? (·.gives? r (f.key side))).or
        (f.inherited? (r.flatten (v.overlays.map Overlay.entry)) side) := by
  rw [resolve_styleList_overlays]
  exact get?_resolve_overlays_side r [] v.overlays f hs

/-- By its number a style keeps its shorthands, for the sides that no entry sets. -/
theorem exists_inherited?_named {id : Nat} {style : StyleObject}
    (hnamed : r.named? (.num (.int id)) = some style) {f : BoxFamily} {side part : BoxPart}
    (hpart : part ∈ [side.axis, .all]) (hset : style.setting? (f.key part) ≠ none) :
    ∃ v, f.inherited? (r.flatten [(Overlay.named id).entry]) side = some v := by
  have hgives := Overlay.gives?_of_named? hnamed
  refine Option.isSome_iff_exists.1 ?_
  rw [Overlay.inherited?_flatten_entry, hgives, hgives, Option.isSome_or, Bool.or_eq_true]
  rcases List.mem_pair.1 hpart with rfl | rfl
  · exact .inl (Option.isSome_iff_ne_none.2 hset)
  · exact .inr (Option.isSome_iff_ne_none.2 hset)

/-- If writing out a style changes no list, it sets its own sides: its shorthands would else count
for a side that the list sets before, and by its number they do not. -/
theorem ownSides_of_inlined {ids : Nat → Prop}
    (h : ∀ v v', Json.Inlined r ids v v' →
      (r.resolve (styleList none [] none (some v'))).SameAs
        (r.resolve (styleList none [] none (some v))))
    {id : Nat} {style : StyleObject} (hid : ids id)
    (hnamed : r.named? (.num (.int id)) = some style) : style.OwnSides := by
  intro f side hs part hpart hset hside
  have hwritten : Json.Inlined r ids (.num (.int id)) (.object style) := .written hid hnamed
  have hover := Json.overlays_of_named? hnamed
  have hnamedSide : (Overlay.named id).gives? r (f.key side) = none :=
    (Overlay.gives?_of_named? hnamed _).trans hside
  obtain ⟨v, hv⟩ := exists_inherited?_named r hnamed hpart hset
  -- alone in a list it gives the side `v` by its number, so it does when it is written out
  have hobjectSide : (Overlay.object style).gives? r (f.key side) = some v := by
    have halone := h _ _ hwritten (f.key side)
    rw [get?_resolve_external_side r _ f hs, get?_resolve_external_side r _ f hs, hover,
      Json.overlays_object] at halone
    simpa [hnamedSide, hv, Overlay.inherited?_flatten_object] using halone
  -- behind another value for the side it counts only when it is written out
  obtain ⟨w, hw⟩ : ∃ b : Bool, .bool b ≠ v := by
    by_cases htrue : v = .bool true
    · exact ⟨false, by simp [htrue]⟩
    · exact ⟨true, Ne.symm htrue⟩
  have hfirst : (Overlay.object (.ofList [(f.key side, .bool w)])).gives? r (f.key side) =
      some (.bool w) := by
    rw [Overlay.gives?_object_side r _ f hs]
    simp [covering?, OrderedMap.get?_ofList, Entries.find?]
  have hbehind := h (.arr [.object (.ofList [(f.key side, .bool w)]), .num (.int id)]) _
    (.list (.cons (.kept _) (.cons hwritten .nil))) (f.key side)
  rw [get?_resolve_external_side r _ f hs, get?_resolve_external_side r _ f hs,
    Json.overlays_pair, Json.overlays_pair, hover, Json.overlays_object, Json.overlays_object]
    at hbehind
  have heq : v = .bool w := by simpa [hnamedSide, hobjectSide, hfirst] using hbehind
  exact hw heq.symm

theorem forall₂_overlays {ids : Nat → Prop} {external inlined : Json}
    (h : Json.Inlined r ids external inlined) (patch : Option StyleObject) :
    List.Forall₂ (Overlay.Inlined r ids) (overlays patch (some external))
      (overlays patch (some inlined)) :=
  List.rel_append (List.forall₂_same.2 fun o _ => .kept o) h.overlays

/-- **When a style counts the same by its number as inline.** Let some of the numbers in a caller's
style, at any depth, be written out as the styles that they name. Properties that are no side of a
box are never changed by that. No list resolves to anything else, whatever it is made of, just if
each of these styles sets by itself every side that one of its shorthands gives a value. -/
theorem resolve_inlined_iff (ids : Nat → Prop) :
    (∀ (compiled : Option CompiledStyles) (keys : List String) (patch : Option StyleObject)
        (external inlined : Json), Json.Inlined r ids external inlined →
      ∀ k, ¬ IsSide k →
        (r.resolve (styleList compiled keys patch (some inlined))).get? k =
          (r.resolve (styleList compiled keys patch (some external))).get? k) ∧
    ((∀ (compiled : Option CompiledStyles) (keys : List String) (patch : Option StyleObject)
        (external inlined : Json), Json.Inlined r ids external inlined →
      (r.resolve (styleList compiled keys patch (some inlined))).SameAs
        (r.resolve (styleList compiled keys patch (some external)))) ↔
      r.HaveOwnSides ids) := by
  refine ⟨fun compiled keys patch external inlined h k hk => ?_, ?_, ?_⟩
  · rw [resolve_styleList_overlays, resolve_styleList_overlays]
    exact get?_resolve_overlays_inlined r (r.forall₂_overlays h patch) _ hk
  · intro h id style hid hnamed
    exact ownSides_of_inlined r (h none [] none) hid hnamed
  · intro hids compiled keys patch external inlined h
    rw [resolve_styleList_overlays, resolve_styleList_overlays]
    exact resolve_overlays_inlined r (r.forall₂_overlays h patch) hids _

/-- The left side is registered for the component, and the caller's style has the horizontal axis:
by its number it does not count on the left, and written out it does. -/
theorem resolve_inlined_lost :
    let wide : StyleObject := .ofList [("paddingHorizontal", .num (.int 5))]
    let r : SheetRegistry := ⟨[.ofList [("paddingLeft", .num (.int 10))], wide]⟩
    let list := fun v : Json => styleList (some (.ofList [("base", 1)])) ["base"] none (some v)
    let external : Json := .arr [.num (.int 2)]
    let inlined : Json := .arr [.object wide]
    Json.Inlined r (fun _ => True) external inlined ∧
      (r.resolve (list external)).get? "paddingLeft" = some (.num (.int 10)) ∧
      (r.resolve (list inlined)).get? "paddingLeft" = some (.num (.int 5)) ∧
      ¬ (r.resolve (list inlined)).SameAs (r.resolve (list external)) := by
  intro wide r list external inlined
  have hnamed : r.named? (.num (.int (2 : Nat))) = some wide := by decide +kernel
  have hbyId : (r.resolve (list external)).get? "paddingLeft" = some (.num (.int 10)) := by
    decide +kernel
  have hinline : (r.resolve (list inlined)).get? "paddingLeft" = some (.num (.int 5)) := by
    decide +kernel
  refine ⟨.list (.cons (.written trivial hnamed) .nil), hbyId, hinline, fun hsame => ?_⟩
  have hleft := hsame "paddingLeft"
  rw [hbyId, hinline] at hleft
  exact absurd hleft (by decide)

end SheetRegistry

end TemplateStyles
