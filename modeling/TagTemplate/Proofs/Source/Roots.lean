import TagTemplate.Proofs.Source.Paths
import TagTemplate.Source.Loader

/-! # Names and search directories

A name is put behind a directory as it stands, and nothing is checked about it.  So it leads to a
path inside the directory, whatever the directory is, exactly if it is not absolute and its steps
never rise above where they begin.

* `Loader.ofPath_join`: the steps of a name are followed from the directory.
* `Loader.ofFiles_eq`: what is loaded is the text of a candidate, or nothing.
* `Loader.candidates_inside_iff`: the names that stay inside. -/

namespace TagTemplate

namespace Loader

open FileTree Location

variable {name : String}

/-! ### Names behind directories -/

theorem join_of_absolute (h : IsAbsolute name) (directory : String) : join directory name = name :=
  if_pos h

/-- A name whose path behind a directory cannot leave it. -/
structure StaysBelow (name : String) : Prop where
  relative : ¬ IsAbsolute name
  risesAtMost : RisesAtMost 0 (steps name)

/-- A slash is put between a directory and a name where there is none. -/
theorem join_cases (h : ¬ IsAbsolute name) (directory : String) :
    (directory = "" ∧ join directory name = name) ∨
    (∃ d, directory = d ++ "/" ∧ join directory name = d ++ "/" ++ name) ∨
    (directory ≠ "" ∧ join directory name = directory ++ "/" ++ name) := by
  unfold IsAbsolute at h
  rw [join, if_neg h]
  split
  · next hend =>
    rcases hend with rfl | hslash
    · exact .inl ⟨rfl, String.empty_append⟩
    · obtain ⟨d, hd⟩ := List.getLast?_eq_some_iff.mp hslash
      have hdirectory : directory = String.ofList d ++ "/" := by
        rw [← String.toList_inj, hd]
        simp
      exact .inr (.inl ⟨String.ofList d, hdirectory, by rw [hdirectory]⟩)
  · next hend => exact .inr (.inr ⟨fun hempty => hend (.inl hempty), rfl⟩)

theorem isAbsolute_join (h : ¬ IsAbsolute name) (directory : String) :
    IsAbsolute (join directory name) ↔ IsAbsolute directory := by
  have hslash (d : String) : d ++ "/" ≠ "" := by simp
  rcases join_cases h directory with ⟨rfl, hjoin⟩ | ⟨d, rfl, hjoin⟩ | ⟨hne, hjoin⟩
  · rw [hjoin]
    exact iff_of_false h (by decide)
  · rw [hjoin, isAbsolute_append (hslash d)]
  · rw [hjoin, isAbsolute_append (hslash directory), isAbsolute_append hne]

/-- The steps of a name come behind those of the directory, of which the last may be empty and is
dropped then. -/
theorem exists_steps_join (h : ¬ IsAbsolute name) (directory : String) :
    ∃ front, (steps directory = front ∨ steps directory = front ++ [""]) ∧
      steps (join directory name) = front ++ steps name := by
  have hempty : steps "" = [""] := steps_plain (by simp)
  rcases join_cases h directory with ⟨rfl, hjoin⟩ | ⟨d, rfl, hjoin⟩ | ⟨-, hjoin⟩
  · exact ⟨[], .inr hempty, by rw [hjoin]; rfl⟩
  · refine ⟨steps d, .inr ?_, by rw [hjoin, steps_slash]⟩
    rw [← String.append_empty (s := d ++ "/"), steps_slash, hempty]
  · exact ⟨steps directory, .inl rfl, by rw [hjoin, steps_slash]⟩

theorem ofPath_join (h : ¬ IsAbsolute name) (directory : String) :
    ofPath (join directory name) = (steps name).foldl follow (ofPath directory) := by
  obtain ⟨front, hfront, hjoin⟩ := exists_steps_join h directory
  have hstart : startOf (join directory name) = startOf directory := by
    rw [startOf, startOf]
    simp only [isAbsolute_join h]
  rw [ofPath, ofPath, hjoin, List.foldl_append, hstart]
  rcases hfront with hfront | hfront
  · rw [hfront]
  · rw [hfront, List.foldl_append, List.foldl_cons, List.foldl_nil, follow_still _ (.inl rfl)]

/-- In a tree, a name that stays below a directory depends on nothing but what is there. -/
theorem lead_join (h : StaysBelow name) (t : FileTree) (directory : String) :
    t.lead (join directory name) = (t.lead directory).bind fun u => walk [] u (steps name) := by
  obtain ⟨front, hfront, hjoin⟩ := exists_steps_join h.relative directory
  simp only [lead, isAbsolute_join h.relative, hjoin, walk_append h.risesAtMost]
  rcases hfront with hfront | hfront
  · rw [hfront]
  · have hstill : RisesAtMost 0 [""] := by decide
    rw [hfront, walk_append hstill]
    cases walk [] (if IsAbsolute directory then empty else t) front with
    | error e => rfl
    | ok u => exact (walk_empty_step (steps_ne_nil name) u).symm

theorem StaysBelow.withExtension (h : StaysBelow name) : StaysBelow (withExtension name) where
  relative := by
    by_cases hempty : name = ""
    · rw [hempty]
      decide
    · rw [Loader.withExtension, isAbsolute_append hempty]
      exact h.relative
  risesAtMost := by
    have hslash : '/' ∉ ".tpl".toList := by decide
    obtain ⟨front, last, hname, hext⟩ := exists_steps_append hslash name
    have hrises := h.risesAtMost
    have hentry : IsEntry (last ++ ".tpl") := by
      apply isEntry_of_length
      have hext : ".tpl".length = 4 := by decide
      rw [String.length_append, hext]
      omega
    rw [hname] at hrises
    rw [Loader.withExtension, hext]
    exact hrises.concat_entry hentry

/-! ### The paths tried for a name -/

theorem exists_join_of_mem_candidates {directories : List String} (hne : directories ≠ [])
    {path : String} (h : path ∈ candidates name directories) :
    ∃ d ∈ directories, path = join d name ∨ path = join d (withExtension name) := by
  rw [candidates, if_neg (by simpa using hne)] at h
  obtain ⟨d, hd, hpath⟩ := List.mem_flatMap.mp h
  exact ⟨d, hd, by simpa using hpath⟩

theorem inside_join (h : StaysBelow name) (d : String) :
    (ofPath (join d name)).Inside (ofPath d) := by
  rw [ofPath_join h.relative]
  exact inside_of_risesAtMost _ h.risesAtMost

/-- A directory whose name occurs in no step of the name is left by a name that can be. -/
theorem exists_not_inside_join (h : ¬ StaysBelow name) :
    ∃ d, ¬ (ofPath (join d name)).Inside (ofPath d) := by
  by_cases habsolute : IsAbsolute name
  · have hroot := start_ofPath_of_absolute habsolute
    have hhere : (ofPath "").start = .above 0 := by decide +kernel
    refine ⟨"", fun hinside => ?_⟩
    rw [join_of_absolute habsolute] at hinside
    cases hroot.symm.trans (hinside.1.trans hhere)
  · -- a directory that the name mentions could be entered again
    obtain ⟨d, hslash, hentry, hfresh⟩ := exists_entry_notMem_steps name
    have hrises : ¬ RisesAtMost (List.length ([] : List String)) (steps name) := fun hrises =>
      h ⟨habsolute, hrises⟩
    have hleft : d ∉ ((steps name).foldl follow ⟨.above 0, [] ++ [d]⟩).below :=
      notMem_below_of_not_risesAtMost hfresh List.not_mem_nil hrises
    refine ⟨d, fun hinside => ?_⟩
    rw [ofPath_join habsolute, ofPath_entry hslash hentry] at hinside
    exact hleft (hinside.2.mem (List.mem_singleton_self d))

theorem ofFiles_eq (files : Files) (name : String) (directories : List String) :
    ofFiles files name directories = .error (.notFound name) ∨
    ∃ path ∈ candidates name directories, files.isFile path = true ∧
      ofFiles files name directories = readSource files path := by
  unfold ofFiles
  split
  · next path hfind =>
    exact .inr ⟨path, List.mem_of_find?_eq_some hfind, List.find?_some hfind, rfl⟩
  · exact .inl rfl

theorem ofFiles_congr {f g : Files} {directories : List String}
    (h : ∀ path ∈ candidates name directories,
      f.isFile path = g.isFile path ∧ f.read path = g.read path) :
    ofFiles f name directories = ofFiles g name directories := by
  have hfind : (candidates name directories).find? f.isFile =
      (candidates name directories).find? g.isFile := by
    rw [← List.head?_filter, ← List.head?_filter,
      List.filter_congr fun path hpath => (h path hpath).1]
  unfold ofFiles
  rw [hfind]
  split
  · next path hpath =>
    rw [readSource, readSource, (h path (List.mem_of_find?_eq_some hpath)).2]
  · rfl

/-- **The names that stay inside.**  A name leads to paths inside the directories, whatever these
are, exactly if it is not absolute and its steps never rise above where they begin.  With such a
name nothing is read but a file at a path inside one of the directories, and in a tree of files what
is loaded depends on nothing but what is there. -/
theorem candidates_inside_iff (name : String) :
    (StaysBelow name ↔ ∀ directories, directories ≠ [] → ∀ path ∈ candidates name directories,
      ∃ d ∈ directories, (ofPath path).Inside (ofPath d)) ∧
    (StaysBelow name → ∀ directories, directories ≠ [] →
      (∀ files, ofFiles files name directories = .error (.notFound name) ∨
        ∃ path, (∃ d ∈ directories, (ofPath path).Inside (ofPath d)) ∧ files.isFile path = true ∧
          ofFiles files name directories = readSource files path) ∧
      ∀ t u : FileTree, (∀ d ∈ directories, t.lead d = u.lead d) →
        ofFiles t.files name directories = ofFiles u.files name directories) := by
  have hinside (h : StaysBelow name) (directories : List String) (hne : directories ≠ [])
      (path : String) (hpath : path ∈ candidates name directories) :
      ∃ d ∈ directories, (ofPath path).Inside (ofPath d) := by
    obtain ⟨d, hd, rfl | rfl⟩ := exists_join_of_mem_candidates hne hpath
    · exact ⟨d, hd, inside_join h d⟩
    · exact ⟨d, hd, inside_join h.withExtension d⟩
  refine ⟨⟨hinside, fun h => ?_⟩, fun h directories hne => ⟨fun files => ?_, fun t u htu => ?_⟩⟩
  · by_contra hstays
    obtain ⟨d, hd⟩ := exists_not_inside_join hstays
    have hcandidate : join d name ∈ candidates name [d] := by simp [candidates]
    obtain ⟨d', hd', hjoin⟩ := h [d] (List.cons_ne_nil d []) _ hcandidate
    rw [List.mem_singleton.mp hd'] at hjoin
    exact hd hjoin
  · rcases ofFiles_eq files name directories with hmissing | ⟨path, hpath, hfile, hread⟩
    · exact .inl hmissing
    · exact .inr ⟨path, hinside h directories hne path hpath, hfile, hread⟩
  · apply ofFiles_congr
    intro path hpath
    have hfind : t.find path = u.find path := by
      obtain ⟨d, hd, rfl | rfl⟩ := exists_join_of_mem_candidates hne hpath
      · rw [find_eq, find_eq, lead_join h, lead_join h, htu d hd]
      · rw [find_eq, find_eq, lead_join h.withExtension, lead_join h.withExtension, htu d hd]
    constructor
    · simp only [FileTree.files, hfind]
    · simp only [FileTree.files, FileTree.read, hfind]

/-- A directory of templates with a page and a header in it, and a file beside it. -/
def secretTree : FileTree :=
  put (.file "a page".toUTF8) ["templates", "page"]
    (put (.file "a header".toUTF8) ["templates", "parts", "header.tpl"]
      (put (.file "a secret".toUTF8) ["secret"] empty))

/-- A name that turns back on its way, but below the directory.  It leads to the same header without
the file beside the directory. -/
theorem candidates_inside_header : StaysBelow "./parts//../parts/header" ∧
    (∀ path ∈ candidates "./parts//../parts/header" ["templates"],
      ∃ d ∈ ["templates"], (ofPath path).Inside (ofPath d)) ∧
    ofFiles secretTree.files "./parts//../parts/header" ["templates"] = .ok "a header" ∧
    ofFiles (put empty ["secret"] secretTree).files "./parts//../parts/header" ["templates"] =
      .ok "a header" := by
  have hstays : StaysBelow "./parts//../parts/header" := ⟨by decide, by decide +kernel⟩
  obtain ⟨hinside, hread⟩ := candidates_inside_iff "./parts//../parts/header"
  have hok :
      ofFiles secretTree.files "./parts//../parts/header" ["templates"] = .ok "a header" := by
    decide +kernel
  have hlead : ∀ d ∈ ["templates"],
      secretTree.lead d = (put empty ["secret"] secretTree).lead d := by
    intro d hd
    rw [List.mem_singleton.mp hd, lead, lead, steps_plain (by decide)]
    rfl
  obtain ⟨-, hsame⟩ := hread hstays ["templates"] (by decide)
  exact ⟨hstays, hinside.mp hstays ["templates"] (by decide), hok, hsame _ _ hlead ▸ hok⟩

/-- A name that leads up is not refused, nor is one that is absolute: the first is read from beside
the directory, and the second is a path by itself. -/
theorem candidates_outside_secret :
    ¬ (∀ path ∈ candidates "../secret" ["templates"],
      ∃ d ∈ ["templates"], (ofPath path).Inside (ofPath d)) ∧
    ¬ (∀ path ∈ candidates "/secret" ["templates"],
      ∃ d ∈ ["templates"], (ofPath path).Inside (ofPath d)) ∧
    ofFiles secretTree.files "../secret" ["templates"] = .ok "a secret" := by
  decide +kernel

end Loader

end TagTemplate
