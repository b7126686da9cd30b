import TemplateStyles.CommandLine.Commands
import TemplateStyles.Proofs.FileTree.Place
import TemplateStyles.Proofs.StyleModule.Statistics
/-!
# What a check says of a file

A check counts what it finds in the templates of a file (`templateIssues_eq_zero_iff` says what this
is). A directory passes just if each of its template files can be read and has no finding
(`checkDirectory_succeeds_iff`), but a file that is checked alone passes whenever it can be read:
its findings are printed, and the count is then dropped. Main result `check_verdicts_iff`: the two
verdicts on one file differ just if the file has a finding, and `check_verdicts_differ` is such a
file.
-/
namespace TemplateStyles

/-- What a check counts in a template. -/
inductive CompiledTemplate.HasFinding (t : CompiledTemplate) : Prop where
  | skipped {piece : String} (h : piece ∈ t.findings.skipped)
  | unknown {property : String} (h : property ∈ t.findings.unknown)
  | ambiguous {declaration : String} (h : declaration ∈ t.findings.ambiguous)
  | kept (h : t.outcome.isRewritten = false)

/-- A file is read by its name, not by its path. -/
theorem Source.ofFile?_congr {text path path' : String}
    (h : FilePath.fileName? path = FilePath.fileName? path') :
    ofFile? text path = ofFile? text path' := by
  unfold ofFile? ofBlock isManifestPath templateName?
  rw [FilePath.extension?_congr h, FilePath.stem?_congr h]

namespace CommandLine

/-! ## Findings -/

/-- **The issues of a template are its findings.** -/
theorem templateIssues_eq_zero_iff {t : CompiledTemplate} :
    templateIssues t = 0 ↔ ¬ t.HasFinding := by
  have hlists : templateIssues t = 0 ↔ t.findings.skipped = [] ∧ t.findings.unknown = [] ∧
      t.findings.ambiguous = [] ∧ t.outcome.isRewritten = true := by
    unfold templateIssues
    cases t.outcome.isRewritten <;> simp [and_assoc]
  rw [hlists]
  constructor
  · rintro ⟨hskipped, hunknown, hambiguous, hrewritten⟩ hfinding
    cases hfinding with
    | skipped h => simp [hskipped] at h
    | unknown h => simp [hunknown] at h
    | ambiguous h => simp [hambiguous] at h
    | kept h => simp [hrewritten] at h
  · intro hnone
    refine ⟨?_, ?_, ?_, ?_⟩
    · exact List.eq_nil_iff_forall_not_mem.2 fun _ h => hnone (.skipped h)
    · exact List.eq_nil_iff_forall_not_mem.2 fun _ h => hnone (.unknown h)
    · exact List.eq_nil_iff_forall_not_mem.2 fun _ h => hnone (.ambiguous h)
    · by_contra hrewritten
      exact hnone (.kept (Bool.eq_false_iff.2 hrewritten))

instance (t : CompiledTemplate) : Decidable t.HasFinding :=
  decidable_of_iff (templateIssues t ≠ 0) (by rw [ne_eq, templateIssues_eq_zero_iff, not_not])

theorem total_templateIssues_eq_zero_iff {m : StyleModule} :
    m.total templateIssues = 0 ↔ ∀ t ∈ m.templates, ¬ t.HasFinding := by
  rw [StyleModule.total_eq_sum, List.sum_eq_zero_iff_forall_eq_nat, List.forall_mem_map]
  exact forall₂_congr fun t _ => templateIssues_eq_zero_iff

/-! ## Reports -/

variable {files : FileTree} {path : String}

theorem issues_checkFile : (checkFile files path).issues =
    (checkedModule files path).map (·.total templateIssues) := by
  unfold checkFile
  cases checkedModule files path <;> rfl

/-- A report is clean if the file can be read and has no finding. -/
theorem isClean_checkFile_iff : (checkFile files path).isClean = true ↔
    ∃ m, checkedModule files path = .ok m ∧ ∀ t ∈ m.templates, ¬ t.HasFinding := by
  rw [FileReport.isClean, issues_checkFile]
  cases checkedModule files path with
  | error e => simp [Except.map]
  | ok m => simp [Except.map, total_templateIssues_eq_zero_iff]

/-- **A directory passes if each template file below it is clean.** -/
theorem checkDirectory_succeeds_iff {directory : String} :
    (checkDirectory files directory).succeeds = true ↔
      ∀ path ∈ templateFiles files directory, (checkFile files path).isClean = true := by
  have hbad : (templateFiles files directory).countP
      (fun path => !(checkFile files path).isClean) = 0 ↔
        ∀ path ∈ templateFiles files directory, (checkFile files path).isClean = true := by
    simp [List.countP_eq_zero]
  rw [← hbad]
  unfold checkDirectory
  dsimp only
  split_ifs with hzero
  · simp [Outcome.succeeds, Outcome.success, hzero]
  · simp only [Outcome.succeeds, Outcome.failed, Option.isNone_some, Bool.false_eq_true, hzero]

/-- **A file that is checked alone passes if it can be read.** -/
theorem check_succeeds_iff {recursive : Bool} (h : files.isDirectory path = false) :
    (check files path recursive).succeeds = true ↔ ∃ m, checkedModule files path = .ok m := by
  unfold check
  dsimp only
  rw [h, Bool.and_false, if_neg Bool.false_ne_true, issues_checkFile]
  cases checkedModule files path with
  | error e => simp [Except.map, Outcome.succeeds, Outcome.failed]
  | ok m => simp [Except.map, Outcome.succeeds, Outcome.success]

/-! ## Files by name and content -/

/-- Why a file cannot be checked. -/
inductive IsUnreadable (name : String) (content : ByteArray) : Prop where
  | notText (h : String.fromUTF8? content = none)
  | badManifest {text : String} (htext : String.fromUTF8? content = some text)
      (hname : Source.isManifestPath name = true) (h : Source.ofManifest? text = none)

/-- The templates of a file that can be read. -/
def source? (name : String) (content : ByteArray) : Option Source :=
  (String.fromUTF8? content).bind fun text => Source.ofFile? text name

theorem source?_eq_none_iff {name : String} {content : ByteArray} :
    source? name content = none ↔ IsUnreadable name content := by
  unfold source?
  constructor
  · intro h
    cases htext : String.fromUTF8? content with
    | none => exact .notText htext
    | some text =>
      rw [htext, Option.bind_some, Source.ofFile?] at h
      split at h
      · exact .badManifest htext ‹_› h
      · simp at h
  · rintro (h | ⟨htext, hname, h⟩)
    · rw [h, Option.bind_none]
    · rw [htext, Option.bind_some, Source.ofFile?, if_pos hname, h]

instance (name : String) (content : ByteArray) : Decidable (IsUnreadable name content) :=
  decidable_of_iff _ source?_eq_none_iff

/-- A file that can be read, with a finding in one of its templates. -/
def HasFinding (name : String) (content : ByteArray) : Prop :=
  ∃ s ∈ source? name content, ∃ t ∈ (s.compile .standard name).templates, t.HasFinding

instance (name : String) (content : ByteArray) : Decidable (HasFinding name content) := by
  unfold HasFinding
  infer_instance

theorem isTemplatePath_congr {path' : String}
    (h : FilePath.fileName? path = FilePath.fileName? path') :
    isTemplatePath path = isTemplatePath path' := by
  rw [isTemplatePath, isTemplatePath, FilePath.extension?_congr h]

variable {place : List String} {name : String} {content : ByteArray}

/-- A file is checked by its name and content, whatever path leads to it. -/
theorem checkedModule_eq_ok_iff (hpath : files.locate path = .ok (place ++ [name]))
    (hfile : files.node? (place ++ [name]) = some (.file content)) {m : StyleModule} :
    checkedModule files path = .ok m ↔
      ∃ s ∈ source? name content, s.compile .standard path = m := by
  obtain ⟨-, hname⟩ := FileTree.isName_of_locate hpath hfile
  unfold checkedModule source?
  rw [FileTree.readText_of_locate hpath hfile]
  cases String.fromUTF8? content with
  | none => simp [Except.mapError, bind, Except.bind]
  | some text =>
    simp only [Except.mapError, bind, Except.bind, Source.ofFile?_congr hname,
      Option.bind_some]
    cases Source.ofFile? text name with
    | none => simp [throw, throwThe, MonadExceptOf.throw]
    | some s => simp [pure, Except.pure]

theorem exists_checkedModule_iff (hpath : files.locate path = .ok (place ++ [name]))
    (hfile : files.node? (place ++ [name]) = some (.file content)) :
    (∃ m, checkedModule files path = .ok m) ↔ ¬ IsUnreadable name content := by
  simp only [checkedModule_eq_ok_iff hpath hfile]
  rw [← source?_eq_none_iff, ← ne_eq, Option.ne_none_iff_exists']
  constructor
  · rintro ⟨m, s, hs, -⟩
    exact ⟨s, hs⟩
  · rintro ⟨s, hs⟩
    exact ⟨_, s, hs, rfl⟩

/-- The templates that a file is compiled to do not know the path of the file. -/
theorem isClean_checkFile_iff_not_hasFinding (hpath : files.locate path = .ok (place ++ [name]))
    (hfile : files.node? (place ++ [name]) = some (.file content)) :
    (checkFile files path).isClean = true ↔
      ¬ IsUnreadable name content ∧ ¬ HasFinding name content := by
  rw [isClean_checkFile_iff, ← exists_checkedModule_iff hpath hfile]
  simp only [checkedModule_eq_ok_iff hpath hfile, HasFinding]
  constructor
  · rintro ⟨m, ⟨s, hs, rfl⟩, hclean⟩
    refine ⟨⟨_, s, hs, rfl⟩, ?_⟩
    rintro ⟨s', hs', t, ht, hfinding⟩
    obtain rfl := Option.mem_unique hs hs'
    exact hclean t ht hfinding
  · rintro ⟨⟨m, s, hs, rfl⟩, hnone⟩
    exact ⟨_, ⟨s, hs, rfl⟩, fun t ht hfinding => hnone ⟨s, hs, t, ht, hfinding⟩⟩

theorem not_isUnreadable_of_hasFinding (h : HasFinding name content) :
    ¬ IsUnreadable name content := by
  obtain ⟨s, hs, -⟩ := h
  rw [← source?_eq_none_iff, Option.mem_def.1 hs]
  simp

/-! ## A file and its directory -/

theorem templateFiles_of_single {directory : String}
    (hdirectory : files.locate directory = .ok place)
    (honly : files.node? place = some (.directory [(name, .file content)]))
    (htemplate : isTemplatePath (FilePath.join directory name) = true) :
    templateFiles files directory = [FilePath.join directory name] := by
  rw [templateFiles, FileTree.filesBelow_of_single hdirectory honly]
  simp [htemplate]

/-- **When a file and its directory get the same verdict.** A style file or manifest alone in a
directory: checked by itself it passes if it can be read, checked with the directory it passes if it
can be read and has no finding. So the verdicts differ just if it has a finding. -/
theorem check_verdicts_iff {directory : String} (recursive : Bool)
    (hdirectory : files.locate directory = .ok place)
    (honly : files.node? place = some (.directory [(name, .file content)]))
    (hpath : files.locate path = .ok (place ++ [name])) (htemplate : isTemplatePath name = true) :
    ((check files path recursive).succeeds = true ↔ ¬ IsUnreadable name content) ∧
      ((check files directory true).succeeds = true ↔
        ¬ IsUnreadable name content ∧ ¬ HasFinding name content) ∧
      ((check files path recursive).succeeds = (check files directory true).succeeds ↔
        ¬ HasFinding name content) := by
  have hfile : files.node? (place ++ [name]) = some (.file content) := by
    rw [FileTree.node?, FileNode.node?_append, ← FileTree.node?, honly]
    simp [FileNode.node?]
  have hname : FilePath.IsName name := (FileTree.isName_of_locate hpath hfile).1
  -- the walk through the directory comes upon the file under the path that it makes for it
  have hjoin : files.locate (FilePath.join directory name) = .ok (place ++ [name]) :=
    FileTree.locate_join hdirectory hname (by rw [hfile]; rfl)
  have hjoinTemplate : isTemplatePath (FilePath.join directory name) = true := by
    rw [isTemplatePath_congr (FileTree.isName_of_locate hjoin hfile).2, htemplate]
  have hsingle : (check files path recursive).succeeds = true ↔ ¬ IsUnreadable name content := by
    rw [check_succeeds_iff (FileTree.isDirectory_of_locate_file hpath hfile),
      exists_checkedModule_iff hpath hfile]
  have hwalk : (check files directory true).succeeds = true ↔
      ¬ IsUnreadable name content ∧ ¬ HasFinding name content := by
    rw [check, FileTree.isDirectory_of_locate hdirectory honly, Bool.and_self, if_pos rfl,
      checkDirectory_succeeds_iff, templateFiles_of_single hdirectory honly hjoinTemplate,
      List.forall_mem_singleton, isClean_checkFile_iff_not_hasFinding hjoin hfile]
  refine ⟨hsingle, hwalk, ?_⟩
  rw [Bool.eq_iff_iff, hsingle, hwalk]
  constructor
  · intro hsame hfinding
    exact (hsame.1 (not_isUnreadable_of_hasFinding hfinding)).2 hfinding
  · intro hnone
    simp [hnone]

/-- A manifest without findings passes, whatever paths lead to it and to its directory. -/
theorem check_verdicts_iff_manifest :
    let manifest := "\x7b\"templates\":[\x7b\"quasis\":[\"opacity: 0.5;\"]\x7d]\x7d"
    let files : FileTree :=
      ⟨.directory [("src", .directory [("deck.json", .file manifest.toUTF8)])], ["src"]⟩
    (check files "../src/./deck.json" false).succeeds = true ∧
      (check files "/src/" true).succeeds = true := by
  intro manifest files
  have hdirectory : files.locate "/src/" = .ok ["src"] := by decide +kernel
  have hpath : files.locate "../src/./deck.json" = .ok (["src"] ++ ["deck.json"]) := by
    decide +kernel
  obtain ⟨hsingle, hwalk, -⟩ :=
    check_verdicts_iff false hdirectory rfl hpath (by decide +kernel)
  have hreadable : ¬ IsUnreadable "deck.json" manifest.toUTF8 := by decide +kernel
  have hnone : ¬ HasFinding "deck.json" manifest.toUTF8 := by decide +kernel
  exact ⟨hsingle.2 hreadable, hwalk.2 ⟨hreadable, hnone⟩⟩

/-- A style file with an unknown property passes alone, and fails with its directory. -/
theorem check_verdicts_differ :
    let files : FileTree :=
      ⟨.directory [("src", .directory [("card.css", .file "colour: red".toUTF8)])], []⟩
    (check files "src/card.css" false).succeeds = true ∧
      (check files "src" true).succeeds = false := by
  decide +kernel

end CommandLine

end TemplateStyles
