import TemplateStyles.Proofs.Json.Compact
import TemplateStyles.Render.Css
/-!
# Remembered patches

A compiled css block remembers the last patch that was not empty, by its compact text. What the
patch function answers may change from call to call (`Metadata.answering`). Since the text of a
patch says which patch it is, a remembered patch is used just where it is the one of this call
(`Remembers.prepare`), so that no result of a run shows that patches are remembered. Main result
`run_transparent`.
-/
namespace TemplateStyles

namespace Metadata

/-- The metadata at a call where the patch function, if there is one, is `f`. -/
def answering (m : Metadata) (f : PatchFunction) : Metadata :=
  { m with patch := m.patch.map fun _ => f }

/-- The patch of such a call, unless it is empty. -/
def shownPatch (m : Metadata) (f : PatchFunction) : Option StyleObject :=
  ((m.answering f).evaluatePatch .empty).filter (!·.isEmpty)

theorem answering_answering (m : Metadata) (f g : PatchFunction) :
    (m.answering f).answering g = m.answering g := by
  simp [answering, Function.comp_def]

end Metadata

/-! ## Rows of patches -/

namespace PatchRow

/-- The last patch of a row of calls; a call may have none. -/
def latest? (row : List (Option StyleObject)) : Option StyleObject := (row.filterMap id).getLast?

/-- Whether the call at `i` has a patch, the same as the last one before it. -/
def repeats (row : List (Option StyleObject)) (i : Nat) : Bool :=
  match row[i]? with
  | some (some p) => latest? (row.take i) == some p
  | _ => false

/-- How many calls have the patch of the last call before them that has one. -/
def repetitions (row : List (Option StyleObject)) : Nat :=
  (List.range row.length).countP (repeats row)

variable (row : List (Option StyleObject))

theorem latest?_append_none : latest? (row ++ [none]) = latest? row := by simp [latest?]

theorem latest?_append_some (p : StyleObject) : latest? (row ++ [some p]) = some p := by
  simp [latest?]

theorem repeats_append_length (q : Option StyleObject) :
    repeats (row ++ [q]) row.length = q.any (latest? row == some ·) := by
  cases q <;> simp [repeats]

theorem repetitions_append (q : Option StyleObject) :
    repetitions (row ++ [q]) =
      repetitions row + if q.any (latest? row == some ·) then 1 else 0 := by
  have hbefore : (List.range row.length).countP (repeats (row ++ [q])) =
      (List.range row.length).countP (repeats row) := by
    refine List.countP_congr fun i hi => ?_
    have hlt : i < row.length := List.mem_range.1 hi
    rw [repeats, repeats, List.getElem?_append_left hlt, List.take_append_of_le_length hlt.le]
  rw [repetitions, List.length_append, List.length_singleton, List.range_succ, List.countP_append,
    hbefore, List.countP_singleton, repeats_append_length, repetitions]

/-- A call without patch stands between two calls with one width; the third width is another. -/
example :
    let width (w : String) : StyleObject := .ofList [("width", .str w)]
    repetitions [some (width "10px"), none, some (width "10px"), some (width "20px")] = 1 := by
  decide +kernel

end PatchRow

/-! ## Calls -/

namespace CssStyle

/-- One call, where the patch function is `f`. -/
def call (s : CssStyle) (f : PatchFunction) : CssResult × CssStyle :=
  { s with metadata := s.metadata.answering f }.evaluate

/-- A row of calls: their results, and the style with what it remembers in the end. -/
def run (s : CssStyle) : List PatchFunction → List CssResult × CssStyle
  | [] => ([], s)
  | f :: fs =>
    let (result, s) := s.call f
    let (results, s) := s.run fs
    (result :: results, s)

/-- A patch as it is remembered. -/
def remembered (p : StyleObject) : CachedPatch := ⟨(Json.object p).compact, p.prepared⟩

/-- **The text of a patch says which patch it is.** -/
theorem text_remembered_injective {p q : StyleObject}
    (h : (remembered p).text = (remembered q).text) : p = q :=
  OrderedMap.ext_entries (Json.obj.inj (Json.compact_injective h))

/-- What a style knows after calls with the given patches. -/
structure Remembers (m : Metadata) (row : List (Option StyleObject)) (s : CssStyle) : Prop where
  metadata : ∀ f, s.metadata.answering f = m.answering f
  cache : s.cache = (PatchRow.latest? row).map remembered
  hits : s.hits = PatchRow.repetitions row

variable {m : Metadata} {row : List (Option StyleObject)} {s : CssStyle}

/-- A patch is prepared, or it is the remembered one, which makes no difference but to the count. -/
theorem prepare_eq (last : Option StyleObject) (h : s.cache = last.map remembered)
    (p : StyleObject) :
    s.prepare p = (p.prepared,
      ⟨s.metadata, some (remembered p), s.hits + if last == some p then 1 else 0⟩) := by
  have hnew : last ≠ some p →
      s.cache.filter (·.text == (Json.object p).compact) = none := by
    intro hne
    rw [h, Option.filter_eq_none_iff]
    intro cached hcached htext
    obtain ⟨q, rfl, rfl⟩ := Option.map_eq_some_iff.1 hcached
    exact hne (congrArg some (text_remembered_injective (q := p) (eq_of_beq htext)))
  by_cases hlast : last = some p
  · have hold : s.cache.filter (·.text == (Json.object p).compact) = some (remembered p) := by
      simp [h, hlast, remembered]
    have hcache : s.cache = some (remembered p) := by rw [h, hlast, Option.map_some]
    simp only [prepare, hold, hlast, beq_self_eq_true, if_true]
    rw [← hcache]
    rfl
  · have hne : (last == some p) = false := by simpa using hlast
    simp only [prepare, hnew hlast, hne, Bool.false_eq_true, if_false, Nat.add_zero]
    rfl

theorem evaluate_of_none (h : (s.metadata.evaluatePatch .empty).filter (!·.isEmpty) = none) :
    s.evaluate = (.ofEntries (s.metadata.staticStyles.getD []), s) := by
  simp only [evaluate, h]

theorem evaluate_of_some {p : StyleObject}
    (h : (s.metadata.evaluatePatch .empty).filter (!·.isEmpty) = some p) :
    s.evaluate = (.ofEntries (s.metadata.staticStyles.getD [] ++ [.inlined (s.prepare p).1]),
      (s.prepare p).2) := by
  simp only [evaluate, h]

/-- **One call**: its result is the one without anything remembered. -/
theorem Remembers.call (h : Remembers m row s) (f : PatchFunction) :
    (s.call f).1 = (ofMetadata (m.answering f)).evaluate.1 ∧
      Remembers m (row ++ [m.shownPatch f]) (s.call f).2 := by
  rw [CssStyle.call, h.metadata]
  cases hp : m.shownPatch f with
  | none =>
    have hshown : ((m.answering f).evaluatePatch .empty).filter (!·.isEmpty) = none := hp
    rw [evaluate_of_none hshown, evaluate_of_none hshown]
    refine ⟨rfl, m.answering_answering f, ?_, ?_⟩
    · rw [PatchRow.latest?_append_none]
      exact h.cache
    · rw [PatchRow.repetitions_append]
      exact h.hits
  | some p =>
    have hshown : ((m.answering f).evaluatePatch .empty).filter (!·.isEmpty) = some p := hp
    have hold := prepare_eq (s := ⟨m.answering f, s.cache, s.hits⟩) _ h.cache p
    have hnew := prepare_eq (s := ofMetadata (m.answering f)) none rfl p
    rw [evaluate_of_some hshown, evaluate_of_some hshown, hold, hnew]
    refine ⟨rfl, m.answering_answering f, ?_, ?_⟩
    · rw [PatchRow.latest?_append_some]
      rfl
    · rw [PatchRow.repetitions_append, ← h.hits]
      rfl

/-- **A row of calls.** -/
theorem Remembers.run (h : Remembers m row s) (fs : List PatchFunction) :
    (s.run fs).1 = fs.map (fun f => (ofMetadata (m.answering f)).evaluate.1) ∧
      Remembers m (row ++ fs.map m.shownPatch) (s.run fs).2 := by
  induction fs generalizing row s with
  | nil => exact ⟨rfl, by rwa [List.map_nil, List.append_nil]⟩
  | cons f fs ih =>
    obtain ⟨hresult, hcall⟩ := h.call f
    obtain ⟨hresults, hrun⟩ := ih hcall
    rw [List.append_assoc, List.singleton_append, ← List.map_cons] at hrun
    exact ⟨by rw [List.map_cons, ← hresult, ← hresults]; rfl, hrun⟩

/-- **Nothing shows that patches are remembered.** Whatever the patch function answers at each
call, the result is the one of a new style with this patch, and the remembered patch was used as
often as a call had the patch of the last call before it that had one. -/
theorem run_transparent (m : Metadata) (fs : List PatchFunction) :
    ((ofMetadata m).run fs).1 = fs.map (fun f => (ofMetadata (m.answering f)).evaluate.1) ∧
      ((ofMetadata m).run fs).2.hits = PatchRow.repetitions (fs.map m.shownPatch) := by
  have hstart : Remembers m [] (ofMetadata m) := ⟨fun _ => rfl, rfl, rfl⟩
  obtain ⟨hresults, hend⟩ := hstart.run fs
  exact ⟨hresults, hend.hits⟩

end CssStyle

end TemplateStyles
