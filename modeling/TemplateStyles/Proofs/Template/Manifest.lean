import TemplateStyles.Proofs.Json.Reread
import TemplateStyles.Template.File
/-!
# Manifests are read back

The manifest of templates is read as these templates. A tag is written as its kind and, for a
styled template, its component, also an empty one; a name is left out if there is none. Kind and
component together say which tag it was (`tagOf_kindOf`), and a missing member is read as what was
left out. Main result `ofManifest?_manifest`.
-/
namespace TemplateStyles

open Json (Written)
open Json.Written (required? defaulted? text? list? nullable? choice?)

/-- A list is read back if its items are. -/
theorem list?_reread {α : Type} {item? : Written → Option α} {toJson : α → Json}
    (h : ∀ x, item? (toJson x).reread = some x) (xs : List α) :
    list? item? (Json.reread (.arr (xs.map toJson))) = some xs := by
  rw [Json.reread, Json.rereadItems_eq, list?]
  induction xs with
  | nil => rfl
  | cons x xs ih =>
    rw [List.map_cons, List.map_cons, List.mapM_cons, h, ih]
    rfl

theorem Expression.ofWritten?_toJson (e : Expression) : ofWritten? e.toJson.reread = some e := rfl

namespace Template

theorem tagOf_kindOf (tag : Tag) : tagOf (kindOf tag) (component? tag) = tag := by
  cases tag <;> rfl

/-- A template is read from a record by its members. -/
theorem ofWritten?_of_members {w : Written} {members : List (String × Written)}
    {name component : Option String} {kind : Kind} {parts : List String}
    {expressions : List Expression} (hrecord : w.record? memberNames = some members)
    (hname : defaulted? "name" none (nullable? text?) members = some name)
    (hkind : defaulted? "kind" .css (choice? Kind.ofName?) members = some kind)
    (hcomponent : defaulted? "component" none (nullable? text?) members = some component)
    (hparts : required? "quasis" (list? text?) members = some parts)
    (hexpressions : defaulted? "expressions" [] (list? Expression.ofWritten?) members =
      some expressions) :
    ofWritten? w = some ⟨name, tagOf kind component, parts, expressions⟩ := by
  unfold ofWritten?
  rw [hrecord, Option.bind_eq_bind, Option.bind_some, hname, Option.bind_eq_bind]
  simp [hkind, hcomponent, hparts, hexpressions]

/-- The members that are written for a template. -/
def writtenMembers (t : Template) : List (String × Written) :=
  (t.name.map fun n => ("name", .leaf (some (.str n)))).toList ++
    ("kind", .leaf (some (.str (kindOf t.tag).name))) ::
    (component? t.tag).toList.map (fun c => ("component", .leaf (some (.str c)))) ++
    [("quasis", Json.reread (.arr (t.parts.map .str))),
     ("expressions", Json.reread (.arr (t.expressions.map Expression.toJson)))]

theorem record?_toJson (t : Template) :
    t.toJson.reread.record? memberNames = some t.writtenMembers := by
  obtain ⟨name, tag, parts, expressions⟩ := t
  cases name <;> cases tag <;> rfl

/-- What is looked up in the members of a template: names, kind and component as they were, and the
lists as they are written. -/
theorem lookup_writtenMembers (t : Template) :
    defaulted? "name" none (nullable? text?) t.writtenMembers = some t.name ∧
      defaulted? "kind" .css (choice? Kind.ofName?) t.writtenMembers = some (kindOf t.tag) ∧
      defaulted? "component" none (nullable? text?) t.writtenMembers =
        some (component? t.tag) ∧
      t.writtenMembers.lookup "quasis" = some (Json.reread (.arr (t.parts.map .str))) ∧
      t.writtenMembers.lookup "expressions" =
        some (Json.reread (.arr (t.expressions.map Expression.toJson))) := by
  obtain ⟨name, tag, parts, expressions⟩ := t
  cases name <;> cases tag <;> exact ⟨rfl, rfl, rfl, rfl, rfl⟩

/-- **A template is read back.** -/
theorem ofWritten?_toJson (t : Template) : ofWritten? t.toJson.reread = some t := by
  obtain ⟨hname, hkind, hcomponent, hquasis, hwritten⟩ := t.lookup_writtenMembers
  have hparts : required? "quasis" (list? text?) t.writtenMembers = some t.parts := by
    rw [required?, hquasis]
    exact list?_reread (fun _ => rfl) t.parts
  have hexpressions : defaulted? "expressions" [] (list? Expression.ofWritten?)
      t.writtenMembers = some t.expressions := by
    rw [defaulted?, hwritten]
    exact list?_reread Expression.ofWritten?_toJson t.expressions
  rw [ofWritten?_of_members t.record?_toJson hname hkind hcomponent hparts hexpressions,
    tagOf_kindOf]

end Template

namespace Source

theorem ofWritten?_toJson (s : Source) : ofWritten? s.toJson.reread = some s := by
  have htemplates := list?_reread Template.ofWritten?_toJson s.templates
  have hrecord : s.toJson.reread.record? ["templates"] =
      some [("templates", Json.reread (.arr (s.templates.map Template.toJson)))] := rfl
  have hlist : required? "templates" (list? Template.ofWritten?)
      [("templates", Json.reread (.arr (s.templates.map Template.toJson)))] =
        some s.templates := htemplates
  unfold ofWritten?
  rw [hrecord, Option.bind_eq_bind, Option.bind_some, hlist]
  rfl

/-- **The manifest of templates is read as these templates**, whatever their texts are. -/
theorem ofManifest?_manifest (s : Source) : ofManifest? s.manifest = some s := by
  rw [ofManifest?, manifest, Json.read?_compact, Option.bind_some, ofWritten?_toJson]

end Source

end TemplateStyles
