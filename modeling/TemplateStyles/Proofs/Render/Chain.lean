import Mathlib.Logic.Function.Iterate
import TemplateStyles.Render.Component
/-!
# Chains of components

A component seen as its layers from the outside in. The search for metadata goes down the layers up
to the first barrier (`isBarrier`): a host component, an animated one, a styled one right on top of
an animated one, or five wrappers in a row. The search depth bounds each run of wrappers and not
the chain, since a styled component that is found starts a search of its own
(`metadataWithin_eq`). Main result `merged_eq_mergeAll`: the metadata of a styled component are
those of the styled components above the barrier, merged from the innermost one outwards, and at
last its own.
-/
namespace TemplateStyles

/-- One component of a chain, without what it wraps. -/
inductive Layer where
  | host
  | wrapper
  | animated
  | styled (own : Metadata)

namespace Layer

def isWrapper : Layer → Bool
  | wrapper => true
  | _ => false

def own? : Layer → Option Metadata
  | styled own => some own
  | _ => none

/-- How many wrappers a chain starts with. -/
def wrappers (chain : List Layer) : Nat := (chain.takeWhile isWrapper).length

/-- Nothing is inherited from the layers of this chain. -/
def isBarrier : List Layer → Bool
  | [] | .host :: _ | .animated :: _ | .styled _ :: .animated :: _ => true
  | chain => 5 ≤ wrappers chain

/-- The layers above the first barrier. -/
def walk : List Layer → List Layer
  | [] => []
  | l :: chain => if isBarrier (l :: chain) then [] else l :: walk chain

/-- What is inherited from a chain, the innermost metadata first. -/
def inherited (chain : List Layer) : List Metadata := ((walk chain).filterMap own?).reverse

end Layer

/-- Metadata merged from left to right. -/
def Metadata.mergeAll : List Metadata → Option Metadata
  | [] => none
  | m :: ms => some (ms.foldl merge m)

theorem Metadata.mergeAll_append_singleton (ms : List Metadata) (m : Metadata) :
    mergeAll (ms ++ [m]) = some (((mergeAll ms).map (·.merge m)).getD m) := by
  cases ms with
  | nil => rfl
  | cons n ms => simp [mergeAll]

/-- The layers of a component from the outside in. -/
def Component.layers : Component → List Layer
  | host _ => [.host]
  | forwardRef c | memo c => .wrapper :: c.layers
  | animated c => .animated :: c.layers
  | styled base own => .styled own :: base.layers

/-! ## Walking down -/

namespace Layer

theorem wrappers_cons (chain : List Layer) :
    wrappers (.wrapper :: chain) = wrappers chain + 1 := rfl

theorem wrappers_styled (own : Metadata) (chain : List Layer) :
    wrappers (.styled own :: chain) = 0 := rfl

theorem isBarrier_of_wrappers {chain : List Layer} (h : 5 ≤ wrappers chain) :
    isBarrier chain = true := by
  unfold isBarrier
  split <;> simp [h]

theorem walk_of_isBarrier {chain : List Layer} (h : isBarrier chain = true) : walk chain = [] := by
  cases chain with
  | nil => rfl
  | cons l chain => exact if_pos h

/-- **The walk stops at the first barrier**: the rest is one, and no longer rest is. -/
theorem walk_spec (chain : List Layer) : ∃ rest, chain = walk chain ++ rest ∧
    isBarrier rest = true ∧ ∀ front back, walk chain = front ++ back → back ≠ [] →
      isBarrier (back ++ rest) = false := by
  induction chain with
  | nil =>
    refine ⟨[], rfl, rfl, fun front back h hback => absurd h ?_⟩
    simp [walk, hback]
  | cons l chain ih =>
    obtain ⟨rest, hchain, hrest, hclear⟩ := ih
    by_cases hbarrier : isBarrier (l :: chain) = true
    · refine ⟨l :: chain, ?_, hbarrier, fun front back h hback => absurd h ?_⟩
      · rw [walk_of_isBarrier hbarrier, List.nil_append]
      · simp [walk_of_isBarrier hbarrier, hback]
    · have hwalk : walk (l :: chain) = l :: walk chain := if_neg hbarrier
      refine ⟨rest, ?_, hrest, fun front back h hback => ?_⟩
      · rw [hwalk, List.cons_append, ← hchain]
      · rw [hwalk] at h
        cases front with
        | nil =>
          rw [List.nil_append] at h
          rw [← h, List.cons_append, ← hchain]
          simpa using hbarrier
        | cons k front => exact hclear front back (List.cons.inj h).2 hback

/-- A short run of wrappers hides nothing. -/
theorem inherited_wrapper {chain : List Layer} (h : wrappers chain < 4) :
    inherited (.wrapper :: chain) = inherited chain := by
  have hclear : isBarrier (.wrapper :: chain) = false := by
    rw [isBarrier, wrappers_cons]
    · simp
      omega
    all_goals simp
  have hown : own? .wrapper = none := rfl
  simp [inherited, walk, hclear, hown]

/-- A styled component adds its metadata behind those of the layers inside it. -/
theorem inherited_styled {own : Metadata} {chain : List Layer}
    (h : isBarrier (.styled own :: chain) = false) :
    inherited (.styled own :: chain) = inherited chain ++ [own] := by
  have hown : own? (.styled own) = some own := rfl
  simp [inherited, walk, h, hown]

/-- What a search of the given depth finds in a chain: nothing behind as many wrappers as it may
look at, and otherwise all that the chain hands down. -/
def search (depth : Nat) (chain : List Layer) : Option Metadata :=
  if depth ≤ wrappers chain then none else Metadata.mergeAll (inherited chain)

theorem wrappers_replicate (n : Nat) (chain : List Layer) :
    wrappers (List.replicate n .wrapper ++ chain) = n + wrappers chain := by
  induction n with
  | zero => simp
  | succ n ih =>
    rw [List.replicate_succ, List.cons_append, wrappers_cons, ih]
    omega

theorem inherited_wrappers {chain : List Layer} (n : Nat) (h : n + wrappers chain < 5) :
    inherited (List.replicate n .wrapper ++ chain) = inherited chain := by
  induction n with
  | zero => rfl
  | succ n ih =>
    have hrun := wrappers_replicate n chain
    rw [List.replicate_succ, List.cons_append, inherited_wrapper (by omega), ih (by omega)]

theorem search_wrapper {depth : Nat} (h : depth < 5) (chain : List Layer) :
    search (depth + 1) (.wrapper :: chain) = search depth chain := by
  rw [search, search, wrappers_cons]
  by_cases hrun : depth ≤ wrappers chain
  · rw [if_pos hrun, if_pos (by omega)]
  · rw [if_neg hrun, if_neg (by omega), inherited_wrapper (by omega)]

/-- A whole search finds what the chain hands down, since a longer run of wrappers is a barrier. -/
theorem search_five (chain : List Layer) :
    search 5 chain = Metadata.mergeAll (inherited chain) := by
  rw [search]
  split
  · rename_i hrun
    rw [inherited, walk_of_isBarrier (isBarrier_of_wrappers hrun)]
    rfl
  · rfl

end Layer

namespace Component

theorem isBarrier_styled (base : Component) (own : Metadata) :
    Layer.isBarrier (.styled own :: base.layers) = base.isFrozen := by
  cases base <;> simp [layers, isFrozen, Layer.isBarrier, Layer.wrappers_styled]

/-- **A search goes down the layers.** A wrapper takes one off the depth, and a styled component
searches anew below itself. -/
theorem metadataWithin_eq (c : Component) {depth : Nat} (h : depth ≤ 5) :
    c.metadataWithin depth = Layer.search depth c.layers := by
  induction c generalizing depth with
  | host name => cases depth <;> rfl
  | animated c => cases depth <;> rfl
  | forwardRef c ih | memo c ih =>
    cases depth with
    | zero => rfl
    | succ depth =>
      rw [metadataWithin, layers, Layer.search_wrapper (by omega), ih (by omega)]
  | styled base own ih =>
    cases depth with
    | zero => rfl
    | succ depth =>
      have hrun : ¬ depth + 1 ≤ Layer.wrappers (.styled own :: base.layers) := by
        rw [Layer.wrappers_styled]
        omega
      rw [metadataWithin, layers, Layer.search, if_neg hrun]
      cases hfrozen : base.isFrozen with
      | true =>
        rw [Layer.inherited, Layer.walk_of_isBarrier (by rw [isBarrier_styled, hfrozen])]
        rfl
      | false =>
        rw [Layer.inherited_styled (by rw [isBarrier_styled, hfrozen]),
          Metadata.mergeAll_append_singleton, ← Layer.search_five, ← ih (Nat.le_refl 5)]
        rfl

theorem metadata_eq (c : Component) :
    c.metadata = Metadata.mergeAll (Layer.inherited c.layers) := by
  rw [metadata, searchDepth, metadataWithin_eq c (Nat.le_refl 5), Layer.search_five]

/-- A host component under styled ones, each below a run of wrappers, the outermost first. -/
def stacked (name : String) : List (Fin 5 × Metadata) → Component
  | [] => .host name
  | (run, own) :: below => memo^[run] (.styled (stacked name below) own)

theorem layers_wrapped (n : Nat) (c : Component) :
    (memo^[n] c).layers = List.replicate n .wrapper ++ c.layers := by
  induction n with
  | zero => rfl
  | succ n ih =>
    rw [Function.iterate_succ_apply', layers, ih, List.replicate_succ, List.cons_append]

theorem isFrozen_stacked (name : String) (below : List (Fin 5 × Metadata)) :
    (stacked name below).isFrozen = false := by
  cases below with
  | nil => rfl
  | cons e below =>
    obtain ⟨⟨run, hrun⟩, own⟩ := e
    cases run with
    | zero => rfl
    | succ run => rw [stacked, Function.iterate_succ_apply']; rfl

/-- Short runs of wrappers hide no styled component, however many there are. -/
theorem inherited_stacked (name : String) (below : List (Fin 5 × Metadata)) :
    Layer.inherited (stacked name below).layers = (below.map (·.2)).reverse := by
  induction below with
  | nil => rfl
  | cons e below ih =>
    obtain ⟨run, own⟩ := e
    have hclear : Layer.isBarrier (.styled own :: (stacked name below).layers) = false := by
      rw [isBarrier_styled, isFrozen_stacked]
    rw [stacked, layers_wrapped, layers,
      Layer.inherited_wrappers run (by rw [Layer.wrappers_styled]; omega),
      Layer.inherited_styled hclear, ih, List.map_cons, List.reverse_cons]

end Component

namespace StyledComponent

theorem mergeAll_inherited (c : StyledComponent) :
    Metadata.mergeAll (Layer.inherited c.base.layers ++ [c.own]) = some c.merged := by
  rw [Metadata.mergeAll_append_singleton, merged, c.base.metadata_eq]

/-- **The metadata of a styled component** are those of the styled components in its chain above the
first barrier, merged from left to right with the innermost first, and its own at the end. With
fewer than five wrappers between any two of them, any number of styled components take part. -/
theorem merged_eq_mergeAll (c : StyledComponent) :
    (∃ walked rest, c.base.layers = walked ++ rest ∧ Layer.isBarrier rest = true ∧
      (∀ front back, walked = front ++ back → back ≠ [] →
        Layer.isBarrier (back ++ rest) = false) ∧
      some c.merged = Metadata.mergeAll ((walked.filterMap Layer.own?).reverse ++ [c.own])) ∧
      ∀ (name : String) (below : List (Fin 5 × Metadata)) (own : Metadata),
        some (StyledComponent.mk (.stacked name below) own).merged =
          Metadata.mergeAll ((below.map (·.2)).reverse ++ [own]) := by
  constructor
  · obtain ⟨rest, hchain, hrest, hclear⟩ := Layer.walk_spec c.base.layers
    exact ⟨_, rest, hchain, hrest, hclear, c.mergeAll_inherited.symm⟩
  · intro name below own
    have hall := mergeAll_inherited ⟨.stacked name below, own⟩
    rw [Component.inherited_stacked] at hall
    exact hall.symm

end StyledComponent

end TemplateStyles
