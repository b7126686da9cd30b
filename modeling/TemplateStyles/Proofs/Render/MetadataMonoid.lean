import TemplateStyles.Proofs.OrderedMap.Merging
import TemplateStyles.Render.Metadata
/-!
# Inheritance is associative

The metadata of three layers do not depend on which two are merged first. Registered styles and
patches are merged as maps, and names are appended. Of attrs, a later layer sees the props under
the values of the earlier ones; since what it sees is merged in the same order for both groupings,
two layers of attrs count as one (`layered_assoc`). Fixed attrs are merged at once, without looking
at the props, and give what functions that return them would (`resolve_of_combine`). Main result
`merge_monoid`.
-/
namespace TemplateStyles

namespace Attrs

/-- The attrs as a function: fixed ones are returned whatever the props are. -/
def computing : Attrs → Attrs
  | fixed values => computed fun _ => some values
  | computed values => computed values

/-- The defaults that a layer gives; none if it gives nothing. -/
def defaults (a : Attrs) (p : Props) : Props := (a.resolve p).getD .empty

theorem resolve_computing (a : Attrs) (p : Props) : a.computing.resolve p = a.resolve p := by
  cases a <;> rfl

/-! ## Two layers -/

/-- Both layers give their defaults, and the second sees those of the first. -/
theorem layered_eq (a b : Attrs) (p : Props) :
    a.layered b p = (a.defaults p).merge (b.defaults (p.merge (a.defaults p))) := by
  unfold layered defaults
  cases a.resolve p with
  | some outer => rfl
  | none => simp

/-- Two layers as one give what the layers give, also where both are fixed and merged at once. -/
theorem resolve_of_combine (a b : Attrs) :
    ∃ ab, combine (some a) (some b) = some ab ∧ ∀ p, ab.resolve p = some (a.layered b p) := by
  cases a with
  | computed f => cases b <;> exact ⟨_, rfl, fun _ => rfl⟩
  | fixed v =>
    cases b with
    | computed g => exact ⟨_, rfl, fun _ => rfl⟩
    | fixed w => exact ⟨.fixed (v.merge w), rfl, fun _ => rfl⟩

/-- **Layers of attrs are associative**: the third sees the same props for both groupings. -/
theorem layered_assoc {a b c ab bc : Attrs} (hab : ∀ p, ab.resolve p = some (a.layered b p))
    (hbc : ∀ p, bc.resolve p = some (b.layered c p)) (p : Props) :
    ab.layered c p = a.layered bc p := by
  have hleft : ab.defaults p = (a.defaults p).merge (b.defaults (p.merge (a.defaults p))) := by
    rw [defaults, hab, Option.getD_some, layered_eq]
  have hright : ∀ q,
      bc.defaults q = (b.defaults q).merge (c.defaults (q.merge (b.defaults q))) := by
    intro q
    rw [defaults, hbc, Option.getD_some, layered_eq]
  rw [layered_eq, layered_eq, hleft, hright, OrderedMap.merge_assoc, OrderedMap.merge_assoc]

theorem layered_congr {a a' b b' : Attrs} (ha : ∀ p, a.resolve p = a'.resolve p)
    (hb : ∀ p, b.resolve p = b'.resolve p) (p : Props) : a.layered b p = a'.layered b' p := by
  rw [layered_eq, layered_eq]
  simp only [defaults, ha, hb]

/-! ## Layers that may be missing -/

/-- Two optional layers that are there for the same metadata and give the same defaults, in the
same order, for all props. -/
def Alike (a b : Option Attrs) : Prop :=
  a.isSome = b.isSome ∧ ∀ p, a.bind (·.resolve p) = b.bind (·.resolve p)

theorem Alike.refl (a : Option Attrs) : Alike a a := ⟨rfl, fun _ => rfl⟩

theorem alike_some {a b : Attrs} (h : ∀ p, a.resolve p = b.resolve p) : Alike (some a) (some b) :=
  ⟨rfl, h⟩

theorem combine_none (a : Option Attrs) : combine a none = a := by
  cases a <;> rfl

theorem alike_combine_assoc (a b c : Option Attrs) :
    Alike (combine (combine a b) c) (combine a (combine b c)) := by
  cases a with
  | none => exact .refl _
  | some a =>
    cases b with
    | none => exact .refl _
    | some b =>
      obtain ⟨ab, hab, habs⟩ := resolve_of_combine a b
      cases c with
      | none =>
        rw [combine_none, combine_none]
        exact .refl _
      | some c =>
        obtain ⟨bc, hbc, hbcs⟩ := resolve_of_combine b c
        obtain ⟨left, hleft, hlefts⟩ := resolve_of_combine ab c
        obtain ⟨right, hright, hrights⟩ := resolve_of_combine a bc
        rw [hab, hbc, hleft, hright]
        exact alike_some fun p => by rw [hlefts, hrights, layered_assoc habs hbcs]

/-- What layers give as one depends on what they give alone. -/
theorem Alike.combine {a a' b b' : Option Attrs} (ha : Alike a a') (hb : Alike b b') :
    Alike (combine a b) (Attrs.combine a' b') := by
  cases a with
  | none =>
    cases a' with
    | none => exact hb
    | some a' => exact absurd ha.1 (by simp)
  | some a =>
    cases a' with
    | none => exact absurd ha.1 (by simp)
    | some a' =>
      cases b with
      | none =>
        cases b' with
        | none => exact ha
        | some b' => exact absurd hb.1 (by simp)
      | some b =>
        cases b' with
        | none => exact absurd hb.1 (by simp)
        | some b' =>
          obtain ⟨ab, hab, habs⟩ := resolve_of_combine a b
          obtain ⟨ab', hab', habs'⟩ := resolve_of_combine a' b'
          rw [hab, hab']
          exact alike_some fun p => by rw [habs, habs', layered_congr ha.2 hb.2]

end Attrs

/-! ## Patches -/

theorem mergePatches_none (s : Option StyleObject) : mergePatches s none = s := by
  cases s <;> rfl

theorem none_mergePatches (s : Option StyleObject) : mergePatches none s = s := by
  cases s <;> rfl

theorem mergePatches_assoc (s t u : Option StyleObject) :
    mergePatches (mergePatches s t) u = mergePatches s (mergePatches t u) := by
  cases s <;> cases t <;> cases u <;>
    simp [mergePatches, OrderedMap.merge_assoc]

theorem combinePatches_assoc (f g h : Option PatchFunction) :
    combinePatches (combinePatches f g) h = combinePatches f (combinePatches g h) := by
  cases f <;> cases g <;> cases h <;>
    simp [combinePatches, mergePatches_assoc]

/-- The value of two patches as one, whichever of them there are. -/
theorem combinePatches_bind (f g : Option PatchFunction) (p : Props) :
    (combinePatches f g).bind (· p) = mergePatches (f.bind (· p)) (g.bind (· p)) := by
  cases f with
  | none =>
    rw [Option.bind_none, none_mergePatches]
    cases g <;> rfl
  | some f =>
    cases g with
    | none => exact (mergePatches_none _).symm
    | some g => rfl

theorem isSome_combinePatches (f g : Option PatchFunction) :
    (combinePatches f g).isSome = (f.isSome || g.isSome) := by
  cases f <;> cases g <;> rfl

namespace Metadata

/-- The same metadata, with attrs that are a function. -/
def computing (m : Metadata) : Metadata := { m with attrs := m.attrs.map Attrs.computing }

/-- Metadata that are the same but for the functions in them, and functions that give the same
results, in the same order, for all props. -/
structure SameAs (m n : Metadata) : Prop where
  compiled : m.compiled = n.compiled
  keys : m.keys = n.keys
  debug : m.debug = n.debug
  hasPatch : m.patch.isSome = n.patch.isSome
  patch : ∀ p, m.evaluatePatch p = n.evaluatePatch p
  attrs : Attrs.Alike m.attrs n.attrs

theorem SameAs.refl (m : Metadata) : m.SameAs m :=
  ⟨rfl, rfl, rfl, rfl, fun _ => rfl, .refl _⟩

/-! ## The components of merged metadata -/

theorem mergeCompiled_none (c : Option CompiledStyles) : mergeCompiled c none = c := by
  cases c <;> rfl

theorem mergeCompiled_assoc (c d e : Option CompiledStyles) :
    mergeCompiled (mergeCompiled c d) e = mergeCompiled c (mergeCompiled d e) := by
  cases c <;> cases d <;> cases e <;>
    simp [mergeCompiled, OrderedMap.merge_assoc]

theorem mergeKeys_none (k : Option (List String)) : mergeKeys k none = k := by
  cases k <;> rfl

theorem mergeKeys_assoc (k l m : Option (List String)) :
    mergeKeys (mergeKeys k l) m = mergeKeys k (mergeKeys l m) := by
  cases k <;> cases l <;> cases m <;>
    simp [mergeKeys]

/-! ## The monoid of metadata -/

theorem merge_assoc (a b c : Metadata) :
    ((a.merge b).merge c).SameAs (a.merge (b.merge c)) where
  compiled := mergeCompiled_assoc a.compiled b.compiled c.compiled
  keys := mergeKeys_assoc a.keys b.keys c.keys
  debug := Bool.or_assoc a.debug b.debug c.debug
  hasPatch := congrArg Option.isSome (combinePatches_assoc a.patch b.patch c.patch)
  patch p := congrArg (·.bind (· p)) (combinePatches_assoc a.patch b.patch c.patch)
  attrs := Attrs.alike_combine_assoc a.attrs b.attrs c.attrs

theorem empty_merge (a : Metadata) : empty.merge a = a := by
  obtain ⟨compiled, keys, patch, attrs, debug⟩ := a
  cases compiled <;> cases keys <;> cases patch <;> cases attrs <;> rfl

theorem merge_empty (a : Metadata) : a.merge empty = a := by
  have hpatch : combinePatches a.patch none = a.patch := by cases a.patch <;> rfl
  simp only [merge, empty, mergeCompiled_none, mergeKeys_none, hpatch, Attrs.combine_none,
    Bool.or_false]

theorem sameAs_computing (a : Metadata) : a.SameAs a.computing := by
  refine { SameAs.refl a with attrs := ?_ }
  rw [computing]
  cases a.attrs with
  | none => exact .refl _
  | some attrs => exact Attrs.alike_some fun p => (attrs.resolve_computing p).symm

/-- Merged metadata evaluate both patches on the same props. -/
theorem evaluatePatch_merge (m n : Metadata) (p : Props) :
    (m.merge n).evaluatePatch p = mergePatches (m.evaluatePatch p) (n.evaluatePatch p) :=
  combinePatches_bind m.patch n.patch p

/-- What is inherited does not depend on how functions are written. -/
theorem SameAs.merge {a a' b b' : Metadata} (ha : a.SameAs a') (hb : b.SameAs b') :
    (a.merge b).SameAs (a'.merge b') where
  compiled := by rw [Metadata.merge, Metadata.merge, ha.compiled, hb.compiled]
  keys := by rw [Metadata.merge, Metadata.merge, ha.keys, hb.keys]
  debug := by rw [Metadata.merge, Metadata.merge, ha.debug, hb.debug]
  hasPatch := by
    rw [Metadata.merge, Metadata.merge, isSome_combinePatches, isSome_combinePatches, ha.hasPatch,
      hb.hasPatch]
  patch p := by rw [evaluatePatch_merge, evaluatePatch_merge, ha.patch, hb.patch]
  attrs := ha.attrs.combine hb.attrs

/-- **Inheritance is associative, and empty metadata change nothing.** Equal are the registered
styles, the names, the patches and attrs for all props, and the debug mark, each with its order.
Fixed attrs may be replaced by a function that returns them, in any layer. -/
theorem merge_monoid (a b c : Metadata) :
    ((a.merge b).merge c).SameAs (a.merge (b.merge c)) ∧
      (empty.merge a).SameAs a ∧ (a.merge empty).SameAs a ∧ a.SameAs a.computing ∧
      ∀ a' b' : Metadata, a.SameAs a' → b.SameAs b' → (a.merge b).SameAs (a'.merge b') := by
  refine ⟨merge_assoc a b c, ?_, ?_, a.sameAs_computing, fun _ _ => .merge⟩
  · rw [empty_merge]
    exact .refl a
  · rw [merge_empty]
    exact .refl a

/-- The second layer is computed from a prop that the first one sets. -/
theorem merge_monoid_sized :
    let sized : Metadata := ⟨some (.ofList [("base", 1)]), some ["base"], none,
      some (.fixed (.ofList [("size", .num (.int 10))])), false⟩
    let wide : Metadata := ⟨none, none, some fun p => (p.get? "width").map fun v =>
        .ofList [("width", v)],
      some (.computed fun p => (p.get? "size").map fun v => .ofList [("width", v)]), true⟩
    sized.SameAs sized.computing ∧ wide.SameAs wide ∧
      (sized.merge wide).SameAs (sized.computing.merge wide) := by
  intro sized wide
  obtain ⟨-, -, -, hcomputing, hmerge⟩ := merge_monoid sized wide empty
  have hwide : wide.SameAs wide := .refl wide
  exact ⟨hcomputing, hwide, hmerge sized.computing wide hcomputing hwide⟩

end Metadata

end TemplateStyles
