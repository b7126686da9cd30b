import TemplateStyles.FileTree
import TemplateStyles.Proofs.Text.Trimming
/-!
# Where paths lead

The parts of a path are followed one after the other, so a path goes on from where its front leads
(`follow_append`). The path of a name inside a directory leads to the entry of that name, whatever
path the directory was found by (`locate_join`). And every path that leads to a file ends in the
name of the file (`isName_of_locate`): what depends on the name alone does not depend on the way.
-/
namespace TemplateStyles

namespace FilePath

/-- A name that leads from a directory to one of its entries. -/
structure IsName (name : String) : Prop where
  ne_empty : name ≠ ""
  slash : '/' ∉ name.toList
  ne_dot : name ≠ "."
  ne_dots : name ≠ ".."

/-! ## Parts of a path -/

/-- The texts between the slashes of a path. -/
def parts (path : String) : List String := (path.toList.splitOn '/').map String.ofList

/-- The parts of a path that are not empty. -/
def names (path : String) : List String := (parts path).filter (· ≠ "")

theorem parts_ne_nil (path : String) : parts path ≠ [] := by
  simp [parts, List.splitOn_ne_nil]

theorem parts_of_not_mem {name : String} (h : '/' ∉ name.toList) : parts name = [name] := by
  rw [parts, List.splitOn_eq_singleton h, List.map_singleton, String.ofList_toList]

theorem parts_append_slash (front back : String) :
    parts (front ++ "/" ++ back) = parts front ++ parts back := by
  have hslash : (front ++ "/" ++ back).toList = front.toList ++ '/' :: back.toList := by simp
  rw [parts, hslash, List.splitOn_append_cons_self, List.map_append, parts, parts]

theorem slash_not_mem_of_mem_parts {path part : String} (h : part ∈ parts path) :
    '/' ∉ part.toList := by
  obtain ⟨chars, hchars, rfl⟩ := List.mem_map.1 h
  intro hslash
  rw [String.toList_ofList] at hslash
  simpa using Text.not_of_mem_splitOnP hchars hslash

/-- Before the last part of a path there is nothing, or a slash. -/
theorem exists_eq_append_last {path last : String} {front : List String}
    (h : parts path = front ++ [last]) :
    ∃ before, path.toList = before ++ last.toList ∧ ∀ c ∈ before.getLast?, c = '/' := by
  by_cases hslash : '/' ∈ path.toList
  · -- the last slash is the first one from behind
    obtain ⟨behind, before, hpath, hbehind⟩ :=
      List.eq_append_cons_of_mem (List.mem_reverse.2 hslash)
    have hpath' : path.toList = before.reverse ++ '/' :: behind.reverse := by
      rw [← List.reverse_reverse path.toList, hpath]
      simp
    have hslash' : '/' ∉ behind.reverse := by simpa using hbehind
    rw [parts, hpath', List.splitOn_append_cons_self, List.splitOn_eq_singleton hslash',
      List.map_append, List.map_singleton] at h
    obtain ⟨-, hlast⟩ := List.append_singleton_inj.1 h
    refine ⟨before.reverse ++ ['/'], ?_, by simp⟩
    rw [hpath', ← hlast, String.toList_ofList]
    simp
  · rw [parts_of_not_mem hslash, ← List.nil_append [path]] at h
    obtain ⟨-, hlast⟩ := List.append_singleton_inj.1 h
    exact ⟨[], by rw [hlast, List.nil_append], by simp⟩

/-! ## File names -/

theorem significantRev_append {name before : List Char} (hne : name ≠ []) (hslash : '/' ∉ name)
    (hdot : name ≠ ['.']) : significantRev (name ++ before) = name ++ before := by
  obtain ⟨c, r, rfl⟩ := List.exists_cons_of_ne_nil hne
  simp only [List.mem_cons, not_or] at hslash
  unfold significantRev
  split
  · simp_all
  · simp_all
  · cases r <;> simp_all
  · rfl

/-- A path whose last part is a name has this part as its file name. -/
theorem fileName?_of_parts {path last : String} {front : List String}
    (h : parts path = front ++ [last]) (hname : IsName last) :
    fileName? path = some last.toList := by
  obtain ⟨before, hpath, hbefore⟩ := exists_eq_append_last h
  have hne : last.toList ≠ [] := by simpa using hname.ne_empty
  have hdot : last.toList ≠ ['.'] := fun hdot => hname.ne_dot (String.toList_inj.1 hdot)
  have hdots : last.toList ≠ ['.', '.'] := fun hdots => hname.ne_dots (String.toList_inj.1 hdots)
  have hrev : significantRev path.toList.reverse = last.toList.reverse ++ before.reverse := by
    rw [hpath, List.reverse_append]
    refine significantRev_append (by simpa using hne) (by simpa using hname.slash) ?_
    intro hdot'
    exact hdot (by simpa using congrArg List.reverse hdot')
  have hlast : (significant path).reverse.takeWhile (· ≠ '/') = last.toList.reverse := by
    rw [significant, List.reverse_reverse, hrev, List.takeWhile_append_of_pos,
      List.append_right_eq_self]
    · cases hr : before.reverse with
      | nil => rfl
      | cons c r =>
        have hc : c = '/' := hbefore c (by rw [List.getLast?_eq_head?_reverse, hr]; rfl)
        simp [hc]
    · intro c hc
      have hc' : c ≠ '/' := fun hc' => hname.slash (hc' ▸ List.mem_reverse.1 hc)
      simpa using hc'
  unfold fileName?
  rw [hlast, List.reverse_reverse]
  split
  · contradiction
  · contradiction
  · rfl

theorem fileName?_of_isName {name : String} (h : IsName name) :
    fileName? name = some name.toList := by
  have hparts : parts name = [] ++ [name] := parts_of_not_mem h.slash
  exact fileName?_of_parts hparts h

theorem extension?_congr {path path' : String} (h : fileName? path = fileName? path') :
    extension? path = extension? path' := by
  rw [extension?, extension?, h]

theorem stem?_congr {path path' : String} (h : fileName? path = fileName? path') :
    stem? path = stem? path' := by
  rw [stem?, stem?, h]

/-! ## Names inside directories -/

/-- A name inside a directory adds one part, if the slash at the end of the directory does not
count. -/
theorem exists_parts_join {directory name : String} (hdirectory : directory ≠ "")
    (hslash : '/' ∉ name.toList) :
    ∃ front, front ≠ [] ∧ parts (join directory name) = front ++ [name] ∧
      (parts directory = front ∨ parts directory = front ++ [""]) := by
  unfold join
  by_cases hlast : directory.toList.getLast? = some '/'
  · obtain ⟨before, hbefore⟩ := List.getLast?_eq_some_iff.1 hlast
    have heq : directory = String.ofList before ++ "/" ++ "" := by
      apply String.toList_inj.1
      simp [hbefore]
    have hjoin : directory ++ name = String.ofList before ++ "/" ++ name := by
      rw [heq]
      simp
    have hempty : parts "" = [""] := parts_of_not_mem (by simp)
    rw [if_pos (.inr hlast), hjoin, heq, parts_append_slash, parts_append_slash,
      parts_of_not_mem hslash, hempty]
    exact ⟨_, parts_ne_nil _, rfl, .inr rfl⟩
  · rw [if_neg (by simp [hdirectory, hlast]), parts_append_slash, parts_of_not_mem hslash]
    exact ⟨_, parts_ne_nil _, rfl, .inl rfl⟩

end FilePath

/-! ## Nodes -/

theorem FileNode.node?_append (n : FileNode) (front back : List String) :
    n.node? (front ++ back) = (n.node? front).bind fun inner => inner.node? back := by
  induction front generalizing n with
  | nil => simp [node?]
  | cons name front ih =>
    cases n with
    | file content => simp [node?]
    | directory entries =>
      simp only [List.cons_append, node?, ih]
      cases entries.lookup name <;> rfl

namespace FileTree

variable {t : FileTree} {place : List String}

/-- What an entry stands in is a directory. -/
theorem exists_directory_of_entry {name : String} (h : (t.node? (place ++ [name])).isSome) :
    ∃ entries, t.node? place = some (.directory entries) := by
  rw [node?, FileNode.node?_append] at h
  cases hnode : t.root.node? place with
  | none => simp [hnode] at h
  | some n =>
    cases n with
    | file content => simp [hnode, FileNode.node?] at h
    | directory entries => exact ⟨entries, hnode⟩

/-- Two dots lead to a directory. -/
theorem exists_directory_dropLast {entries : List (String × FileNode)}
    (h : t.node? place = some (.directory entries)) :
    ∃ entries, t.node? place.dropLast = some (.directory entries) := by
  rcases List.eq_nil_or_concat place with rfl | ⟨front, name, rfl⟩
  · exact ⟨entries, h⟩
  · rw [List.concat_eq_append] at h ⊢
    rw [List.dropLast_concat]
    exact exists_directory_of_entry (by rw [h]; rfl)

/-! ## Following names -/

/-- **A path goes on from where its front leads.** -/
theorem follow_append (t : FileTree) (place front back : List String) :
    t.follow place (front ++ back) = (t.follow place front).bind fun p => t.follow p back := by
  induction front generalizing place with
  | nil =>
    rw [List.nil_append, follow]
    cases hnode : t.node? place with
    | none =>
      -- from nowhere, no names lead anywhere
      cases back <;> simp [follow, hnode, Except.bind]
    | some n => rfl
  | cons name front ih =>
    rw [List.cons_append, follow, follow]
    cases t.node? place with
    | none => rfl
    | some n =>
      cases n with
      | file content => rfl
      | directory entries =>
        dsimp only
        split
        · exact ih place
        · split
          · exact ih place.dropLast
          · exact ih (place ++ [name])

theorem follow_append_eq_ok_iff {front back : List String} {place' : List String} :
    t.follow place (front ++ back) = .ok place' ↔
      ∃ middle, t.follow place front = .ok middle ∧ t.follow middle back = .ok place' := by
  rw [follow_append]
  cases t.follow place front <;> simp [Except.bind]

/-- Where one name leads. -/
theorem follow_singleton_iff {name : String} {place' : List String} :
    t.follow place [name] = .ok place' ↔
      (∃ entries, t.node? place = some (.directory entries)) ∧ (t.node? place').isSome ∧
        place' = if name = "." then place else if name = ".." then place.dropLast
          else place ++ [name] := by
  unfold follow
  cases hnode : t.node? place with
  | none => simp
  | some n =>
    cases n with
    | file content => simp
    | directory entries =>
      dsimp only [follow]
      grind

/-- A path leads to a file by the name of the file. -/
theorem eq_append_of_follow_singleton {name : String} {place' : List String} {content : ByteArray}
    (h : t.follow place [name] = .ok place') (hfile : t.node? place' = some (.file content)) :
    name ≠ "." ∧ name ≠ ".." ∧ place' = place ++ [name] := by
  obtain ⟨⟨entries, hdirectory⟩, -, hplace⟩ := follow_singleton_iff.1 h
  by_cases hdot : name = "."
  · rw [if_pos hdot] at hplace
    rw [hplace, hdirectory] at hfile
    simp at hfile
  · by_cases hdots : name = ".."
    · obtain ⟨above, habove⟩ := exists_directory_dropLast hdirectory
      rw [if_neg hdot, if_pos hdots] at hplace
      rw [hplace, habove] at hfile
      simp at hfile
    · rw [if_neg hdot, if_neg hdots] at hplace
      exact ⟨hdot, hdots, hplace⟩

/-! ## Paths -/

theorem steps_eq (t : FileTree) (path : String) : t.steps path =
    (if (FilePath.parts path).head? = some "" then [] else t.current,
      if (FilePath.parts path).getLast? = some "" then FilePath.names path ++ ["."]
        else FilePath.names path) := rfl

theorem locate_eq_ok_iff {path : String} : t.locate path = .ok place ↔
    path ≠ "" ∧ t.follow (t.steps path).1 (t.steps path).2 = .ok place := by
  unfold locate
  by_cases h : path = "" <;> simp [h]

/-- A slash at the end of a path does not change where it leads. -/
theorem follow_names {path : String} (h : t.locate path = .ok place) :
    t.follow (t.steps path).1 (FilePath.names path) = .ok place := by
  obtain ⟨-, hfollow⟩ := locate_eq_ok_iff.1 h
  by_cases hslash : (FilePath.parts path).getLast? = some ""
  · simp only [steps_eq t path, if_pos hslash] at hfollow ⊢
    obtain ⟨middle, hmiddle, hdot⟩ := follow_append_eq_ok_iff.1 hfollow
    obtain ⟨-, -, hplace⟩ := follow_singleton_iff.1 hdot
    rw [hmiddle, hplace, if_pos rfl]
  · simpa only [steps_eq t path, if_neg hslash] using hfollow

theorem steps_join (t : FileTree) {directory name : String} (hdirectory : directory ≠ "")
    (hname : FilePath.IsName name) : t.steps (FilePath.join directory name) =
      ((t.steps directory).1, FilePath.names directory ++ [name]) := by
  obtain ⟨front, hne, hjoin, hparts⟩ := FilePath.exists_parts_join hdirectory hname.slash
  have hhead : (FilePath.parts directory).head? = front.head? := by
    rcases hparts with hparts | hparts
    · rw [hparts]
    · rw [hparts, List.head?_append_of_ne_nil _ hne]
  have hnames : FilePath.names directory = front.filter (· ≠ "") := by
    rcases hparts with hparts | hparts <;> simp [FilePath.names, hparts]
  rw [steps_eq, steps_eq, hhead, hnames, FilePath.names, hjoin, List.head?_append_of_ne_nil _ hne]
  simp [hname.ne_empty]

/-- **The path of a name inside a directory leads to the entry of this name**, however the path of
the directory is written. -/
theorem locate_join {directory name : String} (h : t.locate directory = .ok place)
    (hname : FilePath.IsName name) (hentry : (t.node? (place ++ [name])).isSome) :
    t.locate (FilePath.join directory name) = .ok (place ++ [name]) := by
  have hdirectory : directory ≠ "" := (locate_eq_ok_iff.1 h).1
  have hjoin : FilePath.join directory name ≠ "" := by
    unfold FilePath.join
    split <;> simp [hname.ne_empty]
  refine locate_eq_ok_iff.2 ⟨hjoin, ?_⟩
  rw [steps_join t hdirectory hname]
  refine follow_append_eq_ok_iff.2 ⟨place, follow_names h, follow_singleton_iff.2 ?_⟩
  refine ⟨exists_directory_of_entry hentry, hentry, ?_⟩
  rw [if_neg hname.ne_dot, if_neg hname.ne_dots]

/-- **A path that leads to a file ends in the name of the file.** -/
theorem isName_of_locate {path name : String} {content : ByteArray}
    (h : t.locate path = .ok (place ++ [name]))
    (hfile : t.node? (place ++ [name]) = some (.file content)) :
    FilePath.IsName name ∧ FilePath.fileName? path = FilePath.fileName? name := by
  obtain ⟨front, last, hparts⟩ : ∃ front last, FilePath.parts path = front ++ [last] := by
    rcases List.eq_nil_or_concat (FilePath.parts path) with hnil | ⟨front, last, hparts⟩
    · exact absurd hnil (FilePath.parts_ne_nil path)
    · exact ⟨front, last, by rw [hparts, List.concat_eq_append]⟩
  obtain ⟨-, hfollow⟩ := locate_eq_ok_iff.1 h
  by_cases hempty : last = ""
  · -- a slash at the end would be followed by a dot, which stays in a directory
    have hsteps : (t.steps path).2 = front.filter (· ≠ "") ++ ["."] := by
      simp [steps_eq, FilePath.names, hparts, hempty]
    rw [hsteps] at hfollow
    obtain ⟨middle, -, hdot⟩ := follow_append_eq_ok_iff.1 hfollow
    exact absurd rfl (eq_append_of_follow_singleton hdot hfile).1
  · have hsteps : (t.steps path).2 = front.filter (· ≠ "") ++ [last] := by
      simp [steps_eq, FilePath.names, hparts, hempty]
    rw [hsteps] at hfollow
    obtain ⟨middle, -, hlast⟩ := follow_append_eq_ok_iff.1 hfollow
    obtain ⟨hdot, hdots, hplace⟩ := eq_append_of_follow_singleton hlast hfile
    obtain ⟨-, hname⟩ := List.append_singleton_inj.1 hplace
    have hmem : last ∈ FilePath.parts path := by simp [hparts]
    have hslash : '/' ∉ last.toList := FilePath.slash_not_mem_of_mem_parts hmem
    subst hname
    have hisName : FilePath.IsName name := ⟨hempty, hslash, hdot, hdots⟩
    exact ⟨hisName, by rw [FilePath.fileName?_of_parts hparts hisName,
      FilePath.fileName?_of_isName hisName]⟩

/-! ## What stands at a place -/

theorem isDirectory_of_locate {path : String} {entries : List (String × FileNode)}
    (h : t.locate path = .ok place) (hdirectory : t.node? place = some (.directory entries)) :
    t.isDirectory path = true := by
  simp [isDirectory, h, hdirectory, FileNode.isDirectory]

theorem isDirectory_of_locate_file {path : String} {content : ByteArray}
    (h : t.locate path = .ok place) (hfile : t.node? place = some (.file content)) :
    t.isDirectory path = false := by
  simp [isDirectory, h, hfile, FileNode.isDirectory]

theorem readText_of_locate {path : String} {content : ByteArray}
    (h : t.locate path = .ok place) (hfile : t.node? place = some (.file content)) :
    t.readText path = match String.fromUTF8? content with
      | none => .error .notText
      | some text => .ok text := by
  simp only [readText, h, bind, Except.bind, hfile]
  cases String.fromUTF8? content <;> rfl

/-- A directory with one entry, which is a file, has one file below it. -/
theorem filesBelow_of_single {path name : String} {content : ByteArray}
    (h : t.locate path = .ok place)
    (hdirectory : t.node? place = some (.directory [(name, .file content)])) :
    t.filesBelow path = [FilePath.join path name] := by
  simp [filesBelow, h, hdirectory, FileNode.filesOf, FileNode.filesAt]

end FileTree

end TemplateStyles
