import TemplateStyles.Proofs.Block.Pieces
import TemplateStyles.Proofs.Block.Shorthand
import TemplateStyles.Proofs.Render.Resolution
/-!
# Redeclared boxes

A whole box may be declared several times in one block, with one, two or four values. Each number
of values is kept under properties of its own, and what a side resolves to is looked up from the
most specific property on. So the last declaration with four values decides, without one the last
with two values, and a single value counts only if there is neither. Main result
`resolveBlock_keepLast_iff`: the last declaration replaces those before it just if it gives each
side what these look-ups find; `resolveBlock_keepLast_lost` is a block where it does not.
-/
namespace TemplateStyles

/-! ## Keeping the last one -/

section

variable {α β : Type}

/-- A row without the members with `p` that another member with `p` comes after. -/
def dropEarlier (p : α → Bool) : List α → List α
  | [] => []
  | a :: rest => if p a && rest.any p then dropEarlier p rest else a :: dropEarlier p rest

variable (p : α → Bool)

theorem dropEarlier_sublist (l : List α) : (dropEarlier p l).Sublist l := by
  induction l with
  | nil => exact List.Sublist.refl _
  | cons a rest ih =>
    rw [dropEarlier]
    split
    · exact ih.cons a
    · exact ih.cons_cons a

/-- One member with `p` is left, the last one. -/
theorem filter_dropEarlier (l : List α) :
    (dropEarlier p l).filter p = (l.filter p).getLast?.toList := by
  induction l with
  | nil => rfl
  | cons a rest ih =>
    rw [dropEarlier]
    by_cases ha : p a = true
    · by_cases hrest : rest.any p = true
      · have hne : rest.filter p ≠ [] := by simpa using hrest
        rw [if_pos (by simp [ha, hrest]), ih, List.filter_cons_of_pos ha,
          List.getLast?_cons_of_ne_nil hne]
      · have hnil : rest.filter p = [] := by simpa using hrest
        rw [if_neg (by simp [hrest]), List.filter_cons_of_pos ha, ih, List.filter_cons_of_pos ha,
          hnil]
        rfl
    · rw [if_neg (by simp [ha]), List.filter_cons_of_neg ha, List.filter_cons_of_neg ha, ih]

/-- All others are left. -/
theorem filter_not_dropEarlier (l : List α) :
    (dropEarlier p l).filter (!p ·) = l.filter (!p ·) := by
  induction l with
  | nil => rfl
  | cons a rest ih =>
    rw [dropEarlier]
    split
    · rename_i h
      rw [ih, List.filter_cons_of_neg (by simp_all)]
    · rw [List.filter_cons, List.filter_cons, ih]

theorem filterMap_dropEarlier (f : β → Option α) (l : List β) :
    (dropEarlier (fun b => (f b).any p) l).filterMap f = dropEarlier p (l.filterMap f) := by
  have hany : ∀ l : List β, (l.any fun b => (f b).any p) = (l.filterMap f).any p := by
    intro l
    rw [List.any_filterMap]
    congr 1
  induction l with
  | nil => rfl
  | cons b rest ih =>
    rw [dropEarlier, hany]
    cases hb : f b with
    | none => simp [hb, ih]
    | some a =>
      rw [List.filterMap_cons_some hb, dropEarlier, Option.any_some]
      split
      · exact ih
      · rw [List.filterMap_cons_some hb, ih]

/-- The last member with a value has the value that is found from the end. -/
theorem findSome?_reverse_eq_getLast? {g : α → Option β} {l : List α}
    (h : ∀ a ∈ l, (g a).isSome = p a) :
    l.reverse.findSome? g = (l.filter p).getLast?.bind g := by
  induction l using List.reverseRecOn with
  | nil => rfl
  | append_singleton l a ih =>
    have ha := h a (by simp)
    rw [List.reverse_append, List.reverse_singleton, List.singleton_append, List.findSome?_cons,
      List.filter_append]
    cases hg : g a with
    | some b =>
      rw [hg, Option.isSome_some] at ha
      rw [List.filter_cons_of_pos ha.symm, List.filter_nil, List.getLast?_concat, Option.bind_some,
        hg]
    | none =>
      rw [hg, Option.isSome_none] at ha
      rw [List.filter_cons_of_neg (by simp [← ha]), List.filter_nil, List.append_nil,
        ih fun a ha => h a (by simp [ha])]

end

namespace Block

/-- The block with the last declaration of a property and without those before it. -/
def keepLast (name : String) (css : String) : String :=
  ";".intercalate (dropEarlier
    (fun piece => (Declaration.ofText? piece).any (·.canonical = name)) (pieces css))

theorem declarations_keepLast (name css : String) : declarations (keepLast name css) =
    dropEarlier (·.canonical = name) (declarations css) := by
  have hpieces : ∀ p ∈ dropEarlier
      (fun piece => (Declaration.ofText? piece).any (·.canonical = name)) (pieces css),
      IsPiece p := fun p hp => isPiece_of_mem ((dropEarlier_sublist _ _).subset hp)
  rw [keepLast, declarations_intercalate_pieces hpieces, filterMap_dropEarlier, declarations]

end Block

/-! ## Values of a whole box -/

namespace BoxFamily

/-- The properties of a family. -/
def keys (f : BoxFamily) : List String := (BoxPart.shorthands ++ BoxPart.all.sides).map f.key

theorem key_mem_keys (f : BoxFamily) (part : BoxPart) : f.key part ∈ f.keys := by
  cases part <;> simp [keys, BoxPart.shorthands, BoxPart.sides]

end BoxFamily

/-- The part of a box that decides a side when this many values are given. -/
def BoxPart.ofCount (side : BoxPart) : Nat → BoxPart
  | 4 => side
  | 2 => side.axis
  | _ => .all

namespace Declaration

/-- How many values a declaration gives. -/
def partCount (d : Declaration) : Nat := (Text.words d.value).length

/-- The value that a declaration of a whole box gives to the property of a part. -/
def part? (d : Declaration) (part : BoxPart) : Option StyleValue :=
  match Text.words d.value, part with
  | [_], .all => some (.ofText d.value)
  | [v, _], .vertical => some (.ofText v)
  | [_, h], .horizontal => some (.ofText h)
  | [t, _, _, _], .top => some (.ofText t)
  | [_, r, _, _], .right => some (.ofText r)
  | [_, _, b, _], .bottom => some (.ofText b)
  | [_, _, _, l], .left => some (.ofText l)
  | _, _ => none

/-- What a side has from a declaration of the whole box. A number that is not finite leaves it
unset. -/
def given? (d : Declaration) (side : BoxPart) : Option Json :=
  ((d.part? (side.ofCount d.partCount)).map StyleValue.toJson).filter (· ≠ .null)

variable {d : Declaration} {f : BoxFamily}

theorem isSome_part? (hd : d.partCount ∈ [1, 2, 4]) {side : BoxPart}
    (hside : side ∈ BoxPart.all.sides) {n : Nat} (hn : n ∈ [1, 2, 4]) :
    (d.part? (side.ofCount n)).isSome = decide (d.partCount = n) := by
  unfold partCount part? at *
  rcases hwords : Text.words d.value with _ | ⟨a, _ | ⟨b, _ | ⟨c, _ | ⟨e, _ | ⟨g, rest⟩⟩⟩⟩⟩ <;>
    simp [hwords] at hd <;>
    simp only [List.mem_cons, List.not_mem_nil, or_false] at hn <;>
    rcases hn with rfl | rfl | rfl <;> cases side <;>
    simp [BoxPart.sides, BoxPart.ofCount, BoxPart.axis] at hside ⊢

/-- What a declaration of a whole box fixes. -/
theorem IsRead.find?_write (h : d.IsRead) (hname : d.canonical = f.name)
    (hmarker : Marker.occursIn d.value = false) (hcount : d.partCount ∈ [1, 2, 4])
    (part : BoxPart) :
    Entries.find? (f.key part) d.write.fixed.reverse = d.part? part ∧ d.write.evaluated = [] := by
  have hbox : d.box? = some f := BoxFamily.find?_eq_some_iff.2 hname.symm
  rw [write, hmarker, if_neg (by simp), h.expandShorthand?_eq, expansion?, hbox]
  unfold partCount at hcount
  unfold part?
  rcases hwords : Text.words d.value with _ | ⟨a, _ | ⟨b, _ | ⟨c, _ | ⟨e, _ | ⟨g, rest⟩⟩⟩⟩⟩ <;>
    simp [hwords] at hcount
  · cases part <;> simp [Write.fixed, Write.evaluated, Entries.find?, hname, ← f.key_all]
  · cases part <;> simp [Write.fixed, Write.evaluated, Entries.find?]
  · cases part <;> simp [Write.fixed, Write.evaluated, Entries.find?]

end Declaration

/-! ## Blocks that declare a box -/

namespace Block

/-- The declarations of one property, in order. -/
def declarationsOf (name : String) (css : String) : List Declaration :=
  (declarations css).filter (·.canonical = name)

/-- A block that declares a whole box, with fixed values of one, two or four words, and no other
property of the family. -/
structure DeclaresBox (f : BoxFamily) (css : String) : Prop where
  declared : declarationsOf f.name css ≠ []
  fixed : ∀ d ∈ declarationsOf f.name css, Marker.occursIn d.value = false
  counted : ∀ d ∈ declarationsOf f.name css, d.partCount ∈ [1, 2, 4]
  alone : ∀ d ∈ declarations css, d.canonical ∈ f.keys → d.canonical = f.name

instance (f : BoxFamily) (css : String) : Decidable (DeclaresBox f css) :=
  decidable_of_iff
    (declarationsOf f.name css ≠ [] ∧
      (∀ d ∈ declarationsOf f.name css, Marker.occursIn d.value = false) ∧
      (∀ d ∈ declarationsOf f.name css, d.partCount ∈ [1, 2, 4]) ∧
      ∀ d ∈ declarations css, d.canonical ∈ f.keys → d.canonical = f.name)
    ⟨fun ⟨h1, h2, h3, h4⟩ => ⟨h1, h2, h3, h4⟩, fun ⟨h1, h2, h3, h4⟩ => ⟨h1, h2, h3, h4⟩⟩

variable {f : BoxFamily} {css : String}

theorem declarationsOf_keepLast (name css : String) :
    declarationsOf name (keepLast name css) = (declarationsOf name css).getLast?.toList := by
  rw [declarationsOf, declarations_keepLast, filter_dropEarlier, declarationsOf]

theorem DeclaresBox.keepLast (h : DeclaresBox f css) :
    DeclaresBox f (keepLast f.name css) := by
  have hsub : declarations (Block.keepLast f.name css) ⊆ declarations css := by
    rw [declarations_keepLast]
    exact (dropEarlier_sublist _ _).subset
  have hof : declarationsOf f.name (Block.keepLast f.name css) ⊆ declarationsOf f.name css := by
    rw [declarationsOf_keepLast]
    exact fun d hd => List.mem_of_getLast? (by simpa using hd)
  refine ⟨?_, fun d hd => h.fixed d (hof hd), fun d hd => h.counted d (hof hd),
    fun d hd => h.alone d (hsub hd)⟩
  simpa [declarationsOf_keepLast] using h.declared

/-- A property of the family is only set where the whole box is declared. -/
theorem DeclaresBox.not_mem_keys (h : DeclaresBox f css) {d : Declaration}
    (hd : d ∈ declarations css) (hname : d.canonical ≠ f.name) (part : BoxPart) :
    f.key part ∉ d.write.keys := by
  intro hk
  rcases (Declaration.isRead_of_mem hd).mem_keys_write hk with e | ⟨g, part', hg, e⟩
  · exact hname (h.alone d hd (e ▸ f.key_mem_keys part))
  · exact hname (hg.trans (by rw [(BoxFamily.key_inj e).1]))

/-- A property of the family has the last value that the whole box gives to it. -/
theorem DeclaresBox.get?_static (h : DeclaresBox f css) (part : BoxPart) :
    (ofText css).rule.static.get? (f.key part) =
      (declarationsOf f.name css).reverse.findSome? (·.part? part) := by
  rw [rule_ofText, StyleRule.get?_static_ofWrites_filter
    fun d hd hp => h.not_mem_keys hd (of_decide_eq_false hp) part]
  refine StyleRule.get?_static_ofWrites_fixed fun d hd => ?_
  obtain ⟨hmem, hname⟩ := List.mem_filter.1 hd
  exact (Declaration.isRead_of_mem hmem).find?_write (of_decide_eq_true hname) (h.fixed d hd)
    (h.counted d hd) part

/-- Other properties do not depend on how the box is declared. -/
theorem get?_static_keepLast {k : String} (hk : ∀ part, k ≠ f.key part) :
    (ofText (keepLast f.name css)).rule.static.get? k = (ofText css).rule.static.get? k := by
  have hother : ∀ css, ∀ d ∈ declarations css, (!decide (d.canonical = f.name)) = false →
      k ∉ d.write.keys := by
    intro css d hd hname hmem
    have hname : d.canonical = f.name := by simpa using hname
    rcases (Declaration.isRead_of_mem hd).mem_keys_write hmem with e | ⟨g, part, hg, e⟩
    · exact hk .all (e.trans (hname.trans f.key_all.symm))
    · have : g = f := by
        rw [hname, ← f.key_all, ← g.key_all] at hg
        exact (BoxFamily.key_inj hg).1.symm
      exact hk part (this ▸ e)
  rw [rule_ofText, rule_ofText, StyleRule.get?_static_ofWrites_filter (hother _),
    StyleRule.get?_static_ofWrites_filter (hother css), declarations_keepLast,
    filter_not_dropEarlier]

/-- What a side has from the last of these declarations with this number of values. -/
def lastGiven? (written : List Declaration) (side : BoxPart) (n : Nat) : Option Json :=
  (written.filter (·.partCount = n)).getLast?.bind (·.given? side)

/-- What a side has from a row of declarations of the whole box: four values count before two, and
two before one. -/
def decided? (written : List Declaration) (side : BoxPart) : Option Json :=
  (lastGiven? written side 4).or ((lastGiven? written side 2).or (lastGiven? written side 1))

theorem decided?_singleton {d : Declaration} (hd : d.partCount ∈ [1, 2, 4]) (side : BoxPart) :
    decided? [d] side = d.given? side := by
  simp only [List.mem_cons, List.not_mem_nil, or_false] at hd
  rcases hd with hd | hd | hd <;> simp [decided?, lastGiven?, hd]

end Block

namespace SheetRegistry

open BoxFamily Block

/-- The fixed properties of a block as a style, registered and resolved. -/
def resolveBlock (r : SheetRegistry) (css : String) : StyleObject :=
  let (registry, id) := r.add (Block.ofText css).rule.static.toJson
  registry.resolve [.registered id]

/-- The registered style of a block, flattened. -/
def flattenBlock (r : SheetRegistry) (css : String) : StyleObject :=
  let (registry, id) := r.add (Block.ofText css).rule.static.toJson
  registry.flatten [.registered id]

variable {f : BoxFamily} {css : String}

theorem get?_flattenBlock (r : SheetRegistry) (css k : String) : (r.flattenBlock css).get? k =
    (((ofText css).rule.static.get? k).map StyleValue.toJson).filter (· ≠ .null) := by
  have hstyle : (r.add (ofText css).rule.static.toJson).1.style?
      (.registered (r.add (ofText css).rule.static.toJson).2) =
        some (ofText css).rule.static.toJson := by
    simp [add, style?, SheetRegistry.get?, size]
  rw [flattenBlock, get?_flatten_of_style? _ hstyle, StyleMap.toJson, OrderedMap.get?_mapValues]

/-- A value of the family is that of the last declaration with the right number of values. -/
theorem get?_flattenBlock_key (h : DeclaresBox f css) (r : SheetRegistry) {side : BoxPart}
    (hside : side ∈ BoxPart.all.sides) {n : Nat} (hn : n ∈ [1, 2, 4]) :
    (r.flattenBlock css).get? (f.key (side.ofCount n)) =
      lastGiven? (declarationsOf f.name css) side n := by
  have hsome : ∀ d ∈ declarationsOf f.name css,
      (d.part? (side.ofCount n)).isSome = decide (d.partCount = n) :=
    fun d hd => Declaration.isSome_part? (h.counted d hd) hside hn
  rw [get?_flattenBlock, h.get?_static, findSome?_reverse_eq_getLast? _ hsome, lastGiven?]
  cases hlast : ((declarationsOf f.name css).filter (·.partCount = n)).getLast? with
  | none => rfl
  | some d =>
    have hcount : d.partCount = n :=
      of_decide_eq_true (List.mem_filter.1 (List.mem_of_getLast? hlast)).2
    rw [Option.bind_some, Option.bind_some, Declaration.given?, hcount]

theorem get?_resolveBlock_side (h : DeclaresBox f css) (r : SheetRegistry) {side : BoxPart}
    (hside : side ∈ BoxPart.all.sides) :
    (r.resolveBlock css).get? (f.key side) = decided? (declarationsOf f.name css) side := by
  have hcovering : (r.resolveBlock css).get? (f.key side) =
      f.covering? (r.flattenBlock css) side := get?_resolve_side _ _ f hside
  have h4 : (r.flattenBlock css).get? (f.key side) =
      lastGiven? (declarationsOf f.name css) side 4 :=
    get?_flattenBlock_key h r hside (n := 4) (by simp)
  have h2 : (r.flattenBlock css).get? (f.key side.axis) =
      lastGiven? (declarationsOf f.name css) side 2 :=
    get?_flattenBlock_key h r hside (n := 2) (by simp)
  have h1 : (r.flattenBlock css).get? (f.key .all) =
      lastGiven? (declarationsOf f.name css) side 1 :=
    get?_flattenBlock_key h r hside (n := 1) (by simp)
  rw [hcovering, covering?, inherited?, h4, h2, h1, decided?]

/-- What is no property of the family is resolved alike. -/
theorem flattenBlock_keepLast (r : SheetRegistry) {k : String} (hk : ∀ part, k ≠ f.key part) :
    (r.flattenBlock (Block.keepLast f.name css)).get? k = (r.flattenBlock css).get? k := by
  rw [get?_flattenBlock, get?_flattenBlock, get?_static_keepLast hk]

/-- **When the last declaration of a box replaces the earlier ones.** A block may declare a whole
box several times, with one, two or four fixed values, beside any other properties. Each side of the
box resolves to what the last declaration with four values gives it, without one to what the last
with two values gives it, and else to the last single value. So the block resolves to the same style
as with only the last of these declarations just if the last one gives the same to each side. -/
theorem resolveBlock_keepLast_iff (h : DeclaresBox f css) (r : SheetRegistry) :
    let written := declarationsOf f.name css
    (∀ side ∈ BoxPart.all.sides,
      (r.resolveBlock css).get? (f.key side) = decided? written side) ∧
    ∃ last, written.getLast? = some last ∧
      ((r.resolveBlock css).SameAs (r.resolveBlock (Block.keepLast f.name css)) ↔
        ∀ side ∈ BoxPart.all.sides, decided? written side = last.given? side) := by
  intro written
  refine ⟨fun side hside => get?_resolveBlock_side h r hside, ?_⟩
  obtain ⟨last, hlast⟩ := Option.isSome_iff_exists.1 (List.getLast?_isSome.2 h.declared)
  -- the shortened block is of the same kind, and its last declaration is the only one
  have hkept : ∀ side ∈ BoxPart.all.sides,
      (r.resolveBlock (Block.keepLast f.name css)).get? (f.key side) = last.given? side := by
    intro side hside
    rw [get?_resolveBlock_side h.keepLast r hside, declarationsOf_keepLast, hlast,
      Option.toList_some, decided?_singleton (h.counted last (List.mem_of_getLast? hlast))]
  refine ⟨last, hlast, fun hsame side hside => ?_, fun hgiven k => ?_⟩
  · rw [← get?_resolveBlock_side h r hside, hsame, hkept side hside]
  · rcases name_cases k with ⟨g, side, hside, rfl⟩ | ⟨g, part, hpart, rfl⟩ | hk
    · by_cases hg : g = f
      · subst hg
        rw [get?_resolveBlock_side h r hside, hgiven side hside, hkept side hside]
      · refine (get?_resolve_side _ _ g hside).trans ?_
        refine (covering?_congr (fun part => ?_) side).trans (get?_resolve_side _ _ g hside).symm
        exact (flattenBlock_keepLast r fun part' e => hg (key_inj e).1).symm
    · exact (get?_resolve_shorthand _ _ g hpart).trans (get?_resolve_shorthand _ _ g hpart).symm
    · refine (get?_resolve_other _ _ hk).trans ?_
      exact (flattenBlock_keepLast r (hk f)).symm.trans (get?_resolve_other _ _ hk).symm

/-- A single value and then two: each side lies on an axis, so the later declaration is enough. -/
theorem resolveBlock_keepLast_iff_axes :
    let css := "margin: 4px; color: red; margin: 1px 2px"
    DeclaresBox .margin css ∧
      (empty.resolveBlock css).SameAs (empty.resolveBlock (Block.keepLast "margin" css)) := by
  intro css
  have h : DeclaresBox .margin css := by decide +kernel
  obtain ⟨-, last, hlast, hsame⟩ := resolveBlock_keepLast_iff h empty
  refine ⟨h, hsame.2 fun side hside => ?_⟩
  have hmargin : (declarationsOf "margin" css).getLast? = some ⟨"margin", "1px 2px"⟩ := by
    decide +kernel
  obtain rfl := Option.some.inj (hmargin.symm.trans hlast)
  revert side
  decide +kernel

/-- Four values and then a single one: the four sides keep their values, and the later declaration
is lost. -/
theorem resolveBlock_keepLast_lost :
    let css := "padding: 1px 2px 3px 4px; padding: 16px"
    DeclaresBox .padding css ∧ Block.keepLast "padding" css = "padding: 16px" ∧
      (empty.resolveBlock css).get? "paddingTop" = some (.num (.int 1)) ∧
      (empty.resolveBlock "padding: 16px").get? "paddingTop" = some (.num (.int 16)) ∧
      ¬ (empty.resolveBlock css).SameAs (empty.resolveBlock (Block.keepLast "padding" css)) := by
  intro css
  have hkept : Block.keepLast "padding" css = "padding: 16px" := by decide +kernel
  have htop : (empty.resolveBlock css).get? "paddingTop" = some (.num (.int 1)) := by
    decide +kernel
  have hlast : (empty.resolveBlock "padding: 16px").get? "paddingTop" = some (.num (.int 16)) := by
    decide +kernel
  refine ⟨by decide +kernel, hkept, htop, hlast, fun hsame => ?_⟩
  have htop' := hsame "paddingTop"
  rw [hkept, htop, hlast] at htop'
  exact absurd htop' (by decide)

end SheetRegistry

end TemplateStyles
