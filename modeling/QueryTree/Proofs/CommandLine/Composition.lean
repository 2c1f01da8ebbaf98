import QueryTree.Proofs.CommandLine.Ending

/-!
# Outputs of several runs

A run that reports queries writes one piece of text after the other, each of which comes of one file
alone (`TreeFile.Contributes`). Only a single tree is written without its path. So the outputs of
two runs on several files each make the output of one run on all of them (`queries_compose`).
-/

namespace QueryTree

/-! ### What files contribute -/

namespace TreeFile

/-- What a file contributes to a report on the queries of several files: its path, a tab and its
query on a line. -/
def Contributes (f : TreeFile) (text : String) : Prop :=
  ∃ tree, f.load = .ok tree ∧ text = f.path ++ "\t" ++ tree.render ++ "\n"

theorem contributes_queryLine {f : TreeFile} {e : String × Tree} (hpath : f.path = e.1)
    (hload : f.load = .ok e.2) : f.Contributes (CommandLine.queryLine true e ++ "\n") :=
  ⟨e.2, hload, by rw [hpath]; rfl⟩

theorem loads_iff_isSome (f : TreeFile) : f.Loads ↔ f.load.toOption.isSome = true := by
  rw [Loads]
  cases f.load with
  | error e => exact iff_of_false (fun ⟨_, h⟩ => by cases h) Bool.false_ne_true
  | ok tree => exact iff_of_true ⟨tree, rfl⟩ rfl

theorem loadAll_append {files files' : List TreeFile} {trees trees' : List (String × Tree)}
    (h : loadAll files = .ok trees) (h' : loadAll files' = .ok trees') :
    loadAll (files ++ files') = .ok (trees ++ trees') := by
  rw [loadAll_eq_ok_iff] at h h' ⊢
  exact List.rel_append h h'

end TreeFile

namespace CommandLine

/-! ### Runs that report queries -/

/-- The run reports the queries at some paths, all of which load. -/
structure QueriesOf (arguments : List String) (s : Surroundings) (paths : List String) : Prop where
  accepted : ∃ o, Options.ofArguments s.folder arguments = .ok o ∧ o.selectors = false ∧
    o.paths s.found s.input = paths
  loads : ∀ path ∈ paths, (s.file path).Loads

variable {arguments : List String} {s : Surroundings} {paths : List String}

/-- Where the same is read, there are the same files. -/
theorem Surroundings.map_file_eq {s s' : Surroundings}
    (h : ∀ path ∈ paths, s.read path = s'.read path) : paths.map s.file = paths.map s'.file :=
  List.map_congr_left fun path hpath => by rw [file, file, h path hpath]

/-- A run on some paths writes the lines of their trees. -/
theorem QueriesOf.exists_trees (h : QueriesOf arguments s paths) (hne : paths ≠ []) :
    ∃ trees, TreeFile.loadAll (paths.map s.file) = .ok trees ∧
      run arguments s = reportQueries trees := by
  obtain ⟨o, ho, hqueries, rfl⟩ := h.accepted
  have hends := ends_run ho
  have hcode := hends.code_eq_zero_iff.mpr
    ⟨Options.not_noSource_of_paths_ne_nil hne, hne, h.loads⟩
  obtain ⟨trees, htrees, hrun⟩ := hends.exists_trees hcode
  exact ⟨trees, htrees, hrun.trans (Options.ofLines_lines hqueries trees)⟩

/-- A run on several paths writes each tree with its path. -/
theorem QueriesOf.output_eq (h : QueriesOf arguments s paths) (hseveral : 2 ≤ paths.length)
    {trees : List (String × Tree)} (htrees : TreeFile.loadAll (paths.map s.file) = .ok trees) :
    (run arguments s).output = String.join (trees.map fun e => queryLine true e ++ "\n") := by
  obtain ⟨trees', htrees', hrun⟩ := h.exists_trees (List.ne_nil_of_length_pos (by omega))
  obtain rfl : trees' = trees := Except.ok.inj (htrees'.symm.trans htrees)
  have hlength := (TreeFile.loadAll_eq_ok_iff.mp htrees).length_eq
  rw [List.length_map] at hlength
  have hlt : decide (1 < trees'.length) = true := decide_eq_true (by omega)
  rw [hrun, reportQueries, Report.ofLines, Report.text, hlt, List.map_map]
  rfl

theorem Options.foldlM_addFile (o : Options) {files : List String}
    (h : ∀ file ∈ files, file ≠ "") :
    files.foldlM addFile o = .ok { o with files := o.files ++ files } := by
  induction files generalizing o with
  | nil => rw [List.append_nil]; rfl
  | cons file files ih =>
    obtain ⟨hfile, hfiles⟩ := List.forall_mem_cons.mp h
    rw [List.foldlM_cons, addFile, if_neg hfile, ok_bind, ih _ hfiles]
    simp only [List.append_assoc, List.singleton_append]

/-- There is a run on every list of paths that may be written on a command line. -/
theorem queriesOf_files {s : Surroundings} (hfolder : s.folder = none)
    (hpaths : ∀ path ∈ paths, path ≠ "") (hloads : ∀ path ∈ paths, (s.file path).Loads) :
    QueriesOf ("--" :: paths) s paths where
  accepted := by
    refine ⟨{ Options.unset with files := paths }, ?_, rfl, ?_⟩
    · rw [hfolder, Options.ofArguments, Options.read_separator,
        Options.foldlM_addFile Options.unset hpaths]
      rfl
    · show paths ++ [] ++ [] = paths
      rw [List.append_nil, List.append_nil]
  loads := hloads

/-! ### The main result -/

/-- **Outputs compose**: a run on one path writes the query of its tree. A run on several paths,
which may repeat, writes what each file contributes, one after the other, and that depends on no
other file. So what is written for two lists of several paths each is written, one after the other,
for the paths of both. There is such a run for every list of paths that load, unless one of them is
empty. -/
theorem queries_compose :
    (∀ arguments s path, QueriesOf arguments s [path] →
        ∃ tree, (s.file path).load = .ok tree ∧
          (run arguments s).output = tree.render ++ "\n") ∧
      (∀ arguments s paths, QueriesOf arguments s paths → 2 ≤ paths.length →
        ∃ texts, List.Forall₂ (fun path text => (s.file path).Contributes text) paths texts ∧
          (run arguments s).output = String.join texts) ∧
      (∀ arguments s paths arguments' s' paths' both t, QueriesOf arguments s paths →
        QueriesOf arguments' s' paths' → QueriesOf both t (paths ++ paths') →
        2 ≤ paths.length → 2 ≤ paths'.length → (∀ path ∈ paths, t.read path = s.read path) →
        (∀ path ∈ paths', t.read path = s'.read path) →
          (run both t).output = (run arguments s).output ++ (run arguments' s').output) ∧
      ∀ s paths, s.folder = none → (∀ path ∈ paths, path ≠ "" ∧ (s.file path).Loads) →
        QueriesOf ("--" :: paths) s paths := by
  refine ⟨?_, ?_, ?_, ?_⟩
  · intro arguments s path h
    obtain ⟨trees, htrees, hrun⟩ := h.exists_trees (List.cons_ne_nil path [])
    obtain ⟨tree, htree⟩ := h.loads path List.mem_cons_self
    rw [List.map_singleton, TreeFile.loadAll_cons_of_ok htree] at htrees
    cases htrees
    refine ⟨tree, htree, ?_⟩
    rw [hrun]
    exact String.empty_append
  · intro arguments s paths h hseveral
    obtain ⟨trees, htrees, -⟩ := h.exists_trees (List.ne_nil_of_length_pos (by omega))
    refine ⟨_, ?_, h.output_eq hseveral htrees⟩
    rw [List.forall₂_map_right_iff]
    exact (List.forall₂_map_left_iff.mp (TreeFile.loadAll_eq_ok_iff.mp htrees)).imp
      fun path e he => TreeFile.contributes_queryLine he.1 he.2
  · intro arguments s paths arguments' s' paths' both t h h' hboth hseveral hseveral' hread hread'
    obtain ⟨trees, htrees, -⟩ := h.exists_trees (List.ne_nil_of_length_pos (by omega))
    obtain ⟨trees', htrees', -⟩ := h'.exists_trees (List.ne_nil_of_length_pos (by omega))
    have hfiles : (paths ++ paths').map t.file = paths.map s.file ++ paths'.map s'.file := by
      rw [List.map_append, Surroundings.map_file_eq hread, Surroundings.map_file_eq hread']
    have hall : TreeFile.loadAll ((paths ++ paths').map t.file) = .ok (trees ++ trees') := by
      rw [hfiles]
      exact TreeFile.loadAll_append htrees htrees'
    have hlength : 2 ≤ (paths ++ paths').length := by
      rw [List.length_append]
      omega
    rw [hboth.output_eq hlength hall, h.output_eq hseveral htrees,
      h'.output_eq hseveral' htrees', List.map_append, String.join_append]
  · intro s paths hfolder hpaths
    exact queriesOf_files hfolder (fun path hpath => (hpaths path hpath).1)
      fun path hpath => (hpaths path hpath).2

/-- A file that is listed twice, and once more with another one. -/
theorem queries_compose_of_repeated :
    let s : Surroundings := ⟨none, fun _ => [], fun path => if path = "a.yaml" then
      .ok (Text.bytes "selector: a\ncomparison: eq\nargument: 1")
      else .ok (Text.bytes "selector: b\ncomparison: ne\nargument: 2"), [], fun _ => ""⟩
    QueriesOf ["--", "a.yaml", "a.yaml"] s ["a.yaml", "a.yaml"] ∧
      QueriesOf ["--", "b.yaml", "a.yaml"] s ["b.yaml", "a.yaml"] ∧
      (run ["--", "a.yaml", "a.yaml", "b.yaml", "a.yaml"] s).output =
        (run ["--", "a.yaml", "a.yaml"] s).output ++ (run ["--", "b.yaml", "a.yaml"] s).output := by
  intro s
  have ha : (s.file "a.yaml").Loads := (TreeFile.loads_iff_isSome _).mpr (by decide +kernel)
  have hb : (s.file "b.yaml").Loads := (TreeFile.loads_iff_isSome _).mpr (by decide +kernel)
  obtain ⟨-, -, hcompose, hfiles⟩ := queries_compose
  have hruns : ∀ paths, (∀ path ∈ paths, path = "a.yaml" ∨ path = "b.yaml") →
      QueriesOf ("--" :: paths) s paths := by
    refine fun paths hpaths => hfiles s paths rfl fun path hpath => ?_
    rcases hpaths path hpath with rfl | rfl
    · exact ⟨by decide, ha⟩
    · exact ⟨by decide, hb⟩
  have hfirst := hruns ["a.yaml", "a.yaml"] (by simp)
  have hsecond := hruns ["b.yaml", "a.yaml"] (by simp)
  refine ⟨hfirst, hsecond, ?_⟩
  exact hcompose _ s _ _ s _ _ s hfirst hsecond (hruns _ (by simp)) (by decide) (by decide)
    (fun _ _ => rfl) fun _ _ => rfl

end CommandLine

end QueryTree
