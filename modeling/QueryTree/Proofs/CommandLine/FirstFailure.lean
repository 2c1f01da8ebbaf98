import QueryTree.CommandLine.Report
import QueryTree.Proofs.Outcome

/-!
# All files or none

A run loads its files one after the other, and the first that gives no tree ends it
(`TreeFile.loadAll_eq_error_iff`). Such a run reports nothing but that file and its error, whatever
follows the file and whatever was to be reported (`CommandLine.run_all_or_nothing`).
-/

namespace QueryTree

/-! ### Loading files -/

namespace TreeFile

/-- The file gives a tree. -/
def Loads (f : TreeFile) : Prop := ∃ tree, f.load = .ok tree

theorem loadAll_cons_of_error {f : TreeFile} {e : LoadError} (h : f.load = .error e)
    (files : List TreeFile) : loadAll (f :: files) = .error (f.path, e) := by
  rw [loadAll, h]

theorem loadAll_cons_of_ok {f : TreeFile} {tree : Tree} (h : f.load = .ok tree)
    (files : List TreeFile) :
    loadAll (f :: files) = (loadAll files).map ((f.path, tree) :: ·) := by
  rw [loadAll, h]

/-- All files with their trees are returned if every file gives a tree. -/
theorem exists_loadAll_iff (files : List TreeFile) :
    (∃ trees, loadAll files = .ok trees) ↔ ∀ f ∈ files, f.Loads := by
  induction files with
  | nil => simp [loadAll]
  | cons f files ih =>
    rw [List.forall_mem_cons, ← ih]
    constructor
    · rintro ⟨trees, h⟩
      cases hf : f.load with
      | error e =>
        rw [loadAll_cons_of_error hf] at h
        cases h
      | ok tree =>
        rw [loadAll_cons_of_ok hf, map_eq_ok_iff] at h
        obtain ⟨trees, h, -⟩ := h
        exact ⟨⟨tree, hf⟩, trees, h⟩
    · rintro ⟨⟨tree, hf⟩, trees, h⟩
      exact ⟨(f.path, tree) :: trees, by rw [loadAll_cons_of_ok hf, h]; rfl⟩

/-- **The first failure wins**: loading ends with the error of a file behind files that give
trees. -/
theorem loadAll_eq_error_iff {files : List TreeFile} {path : String} {e : LoadError} :
    loadAll files = .error (path, e) ↔
      ∃ before f after, files = before ++ f :: after ∧ (∀ g ∈ before, g.Loads) ∧
        f.load = .error e ∧ f.path = path := by
  induction files with
  | nil => simp [loadAll]
  | cons f files ih =>
    cases hf : f.load with
    | error e' =>
      rw [loadAll_cons_of_error hf]
      constructor
      · intro h
        cases h
        exact ⟨[], f, files, rfl, by simp, hf, rfl⟩
      · rintro ⟨before, g, after, hfiles, hbefore, hg, rfl⟩
        cases before with
        | nil =>
          obtain ⟨rfl, rfl⟩ := List.cons.inj hfiles
          rw [hf] at hg
          cases hg
          rfl
        | cons h before =>
          -- the failing file would be among those that give trees
          obtain ⟨rfl, rfl⟩ := List.cons.inj hfiles
          obtain ⟨tree, htree⟩ := hbefore f (List.mem_cons_self ..)
          rw [hf] at htree
          cases htree
    | ok tree =>
      rw [loadAll_cons_of_ok hf, map_eq_error_iff, ih]
      constructor
      · rintro ⟨before, g, after, rfl, hbefore, hg, hpath⟩
        exact ⟨f :: before, g, after, rfl, List.forall_mem_cons.mpr ⟨⟨tree, hf⟩, hbefore⟩, hg,
          hpath⟩
      · rintro ⟨before, g, after, hfiles, hbefore, hg, hpath⟩
        cases before with
        | nil =>
          obtain ⟨rfl, rfl⟩ := List.cons.inj hfiles
          rw [hf] at hg
          cases hg
        | cons h before =>
          obtain ⟨rfl, rfl⟩ := List.cons.inj hfiles
          exact ⟨before, g, after, rfl, (List.forall_mem_cons.mp hbefore).2, hg, hpath⟩

/-- Where not all files give trees, there is a first one that gives none. -/
theorem exists_first_failure {files : List TreeFile} (h : ¬ ∀ f ∈ files, f.Loads) :
    ∃ before f after e, files = before ++ f :: after ∧ (∀ g ∈ before, g.Loads) ∧
      f.load = .error e := by
  cases hall : loadAll files with
  | ok trees => exact absurd ((exists_loadAll_iff files).mp ⟨trees, hall⟩) h
  | error failure =>
    obtain ⟨path, e⟩ := failure
    obtain ⟨before, f, after, hfiles, hbefore, he, -⟩ := loadAll_eq_error_iff.mp hall
    exact ⟨before, f, after, e, hfiles, hbefore, he⟩

end TreeFile

/-! ### Runs -/

namespace CommandLine

/-- The file at a path. -/
def Surroundings.file (s : Surroundings) (path : String) : TreeFile := ⟨path, s.read path⟩

/-- A run with some path is one with a source of trees. -/
theorem Options.hasSource_of_mem_paths {o : Options} {found : String → List String}
    {input : List UInt8} {path : String} (h : path ∈ o.paths found input) :
    o.hasSource = true := by
  unfold Options.paths at h
  unfold Options.hasSource
  rcases List.mem_append.mp h with h | h
  · rcases List.mem_append.mp h with h | h
    · cases hfiles : o.files with
      | nil =>
        rw [hfiles] at h
        cases h
      | cons _ _ => rfl
    · cases hdir : o.dir with
      | none =>
        rw [hdir] at h
        cases h
      | some dir => simp
  · cases hstdin : o.stdin with
    | false =>
      rw [hstdin] at h
      cases h
    | true => simp

theorem run_eq_report {arguments : List String} {s : Surroundings} {o : Options}
    (ho : Options.ofArguments s.folder arguments = .ok o) (hsource : o.hasSource = true) :
    run arguments s = o.report s.wording ((o.paths s.found s.input).map s.file) := by
  rw [run, ho]
  show o.run s = _
  rw [Options.run, hsource]
  rfl

/-- A run whose first failing file stands behind files that give trees. -/
theorem run_eq_failure {arguments : List String} {s : Surroundings} {o : Options}
    {before after : List String} {path : String} {e : LoadError}
    (ho : Options.ofArguments s.folder arguments = .ok o)
    (hpaths : o.paths s.found s.input = before ++ path :: after)
    (hbefore : ∀ q ∈ before, (s.file q).Loads) (he : (s.file path).load = .error e) :
    run arguments s = .failure (complaint s.wording path e) := by
  have hmem : path ∈ o.paths s.found s.input := by simp [hpaths]
  have hall : TreeFile.loadAll ((o.paths s.found s.input).map s.file) = .error (path, e) := by
    refine TreeFile.loadAll_eq_error_iff.mpr
      ⟨before.map s.file, s.file path, after.map s.file, ?_, ?_, he, rfl⟩
    · rw [hpaths, List.map_append, List.map_cons]
    · intro g hg
      obtain ⟨q, hq, rfl⟩ := List.mem_map.mp hg
      exact hbefore q hq
  rw [run_eq_report ho (Options.hasSource_of_mem_paths hmem), Options.report, hall]

/-- Where not all paths load, there is a first one that does not. -/
theorem Surroundings.exists_first_failure {s : Surroundings} {paths : List String}
    (h : ∃ path ∈ paths, ¬ (s.file path).Loads) :
    ∃ before path after e, paths = before ++ path :: after ∧
      (∀ q ∈ before, (s.file q).Loads) ∧ (s.file path).load = .error e := by
  have hnot : ¬ ∀ f ∈ paths.map s.file, f.Loads := by
    obtain ⟨path, hmem, hpath⟩ := h
    exact fun hall => hpath (hall _ (List.mem_map_of_mem hmem))
  obtain ⟨before, f, after, e, hfiles, hbefore, he⟩ := TreeFile.exists_first_failure hnot
  obtain ⟨before, rest, rfl, rfl, hrest⟩ := List.map_eq_append_iff.mp hfiles
  obtain ⟨path, after, rfl, rfl, -⟩ := List.map_eq_cons_iff.mp hrest
  exact ⟨before, path, after, e, rfl, fun q hq => hbefore _ (List.mem_map_of_mem hq), he⟩

/-- **All or nothing**: a run with a path that does not load fails with code 2 and writes nothing
but the first such path and its error. Every run whose paths begin with the same ones, with the same
contents up to the failing one, leaves the same behind, whatever its options are. A run that writes
something to the output has loaded all its paths. The wording for a text that is not well-formed is
any, as long as it is the same for both runs. -/
theorem run_all_or_nothing {arguments : List String} {s : Surroundings} {o : Options}
    (ho : Options.ofArguments s.folder arguments = .ok o) :
    ((∃ path ∈ o.paths s.found s.input, ¬ (s.file path).Loads) →
      ∃ before path after e, o.paths s.found s.input = before ++ path :: after ∧
        (∀ q ∈ before, (s.file q).Loads) ∧ (s.file path).load = .error e ∧
        (run arguments s).status.code = 2 ∧ (run arguments s).output = "" ∧
        (run arguments s).complaint =
          "Tree error in " ++ path ++ ": " ++ e.message s.wording ++ "\n" ∧
        ∀ arguments' s' o' after', Options.ofArguments s'.folder arguments' = .ok o' →
          o'.paths s'.found s'.input = before ++ path :: after' →
          (∀ q ∈ before ++ [path], s'.read q = s.read q) → s'.wording = s.wording →
          run arguments' s' = run arguments s) ∧
      ((run arguments s).output ≠ "" →
        ∀ path ∈ o.paths s.found s.input, (s.file path).Loads) := by
  constructor
  · intro h
    obtain ⟨before, path, after, e, hpaths, hbefore, he⟩ := s.exists_first_failure h
    have hrun := run_eq_failure ho hpaths hbefore he
    refine ⟨before, path, after, e, hpaths, hbefore, he, by rw [hrun]; rfl, by rw [hrun]; rfl,
      by rw [hrun]; rfl, ?_⟩
    intro arguments' s' o' after' ho' hpaths' hread hwording
    have hfile : ∀ q ∈ before ++ [path], s'.file q = s.file q := by
      intro q hq
      rw [Surroundings.file, Surroundings.file, hread q hq]
    rw [hrun, ← hwording]
    apply run_eq_failure ho' hpaths'
    · intro q hq
      rw [hfile q (List.mem_append_left _ hq)]
      exact hbefore q hq
    · rw [hfile path (by simp)]
      exact he
  · intro houtput path hmem
    apply Classical.byContradiction
    intro hpath
    obtain ⟨before, path, after, e, hpaths, hbefore, he⟩ :=
      s.exists_first_failure ⟨path, hmem, hpath⟩
    rw [run_eq_failure ho hpaths hbefore he] at houtput
    exact houtput rfl

/-- Three files, of which the second is not well-formed and the third is missing. -/
theorem run_all_or_nothing_of_malformed :
    let arguments := ["a.yaml", "b.yaml", "c.yaml", "--count"]
    let s : Surroundings := ⟨none, fun _ => [], fun path =>
      if path = "a.yaml" then .ok (Text.bytes "{selector: a, comparison: eq, argument: 1}")
      else if path = "b.yaml" then .ok (Text.bytes "@") else .error .missing, [], fun _ =>
        "found character that cannot start any token, while scanning for the next token"⟩
    (s.file "a.yaml").Loads ∧ ¬ (s.file "b.yaml").Loads ∧ ¬ (s.file "c.yaml").Loads ∧
      (run arguments s).status.code = 2 ∧ (run arguments s).output = "" ∧
      (run arguments s).complaint = "Tree error in b.yaml: Invalid YAML: found character that " ++
        "cannot start any token, while scanning for the next token\n" := by
  intro arguments s
  have hload : (s.file "a.yaml").load.toOption = some (.constraint "a" .equals (.int 1)) := by
    decide +kernel
  have ha : (s.file "a.yaml").Loads := ⟨_, toOption_eq_some_iff.mp hload⟩
  have hb : (s.file "b.yaml").load = .error (.unfit (.yaml "@" .syntaxError)) := by rfl
  have hfails : ∀ {path e}, (s.file path).load = .error e → ¬ (s.file path).Loads := by
    rintro path e he ⟨tree, h⟩
    rw [he] at h
    cases h
  obtain ⟨hfailure, -⟩ := @run_all_or_nothing arguments s
    ⟨["a.yaml", "b.yaml", "c.yaml"], none, false, false, true, 0⟩ rfl
  obtain ⟨before, path, after, e, hpaths, hbefore, he, hcode, houtput, hcomplaint, -⟩ :=
    hfailure ⟨"b.yaml", by decide, hfails hb⟩
  refine ⟨ha, hfails hb, hfails rfl, hcode, houtput, ?_⟩
  -- the first file loads and the second does not, so it is the second that is complained about
  obtain rfl : path = "b.yaml" := by
    cases before with
    | nil =>
      obtain ⟨rfl, -⟩ := List.cons.inj hpaths
      exact absurd ha (hfails he)
    | cons first before =>
      obtain ⟨-, hrest⟩ := List.cons.inj hpaths
      cases before with
      | nil => exact (List.cons.inj hrest).1.symm
      | cons second before =>
        obtain ⟨rfl, -⟩ := List.cons.inj hrest
        exact absurd (hbefore "b.yaml" (by simp)) (hfails hb)
  obtain rfl := Except.error.inj (hb.symm.trans he)
  exact hcomplaint

end CommandLine

end QueryTree
