import QueryTree.Proofs.CommandLine.FirstFailure
import QueryTree.Proofs.CommandLine.Sources
import QueryTree.Proofs.Inventory.Listing

/-!
# How runs end

A run of accepted options ends in one of four ways (`Options.Ends`): no source of trees is given, a
file gives no tree, the sources name no file, or all trees are reported on. A report has a line at
least, since every tree has a selector. So the sources alone decide the exit code and what is said
about a failure, and something is written to the output exactly if the exit code is zero
(`run_ends_by_sources`).
-/

namespace QueryTree

theorem Tree.selectors_ne_nil (t : Tree) : t.selectors ≠ [] := by
  induction t with
  | and l r ihl _ => exact List.append_ne_nil_of_left_ne_nil ihl r.selectors
  | or l r ihl _ => exact List.append_ne_nil_of_left_ne_nil ihl r.selectors
  | constraint s c a => exact List.cons_ne_nil s []

/-- Some trees use some selector. -/
theorem Inventory.ofTrees_ne_nil {trees : List Tree} (h : trees ≠ []) : ofTrees trees ≠ [] := by
  obtain ⟨t, rest, rfl⟩ := List.exists_cons_of_ne_nil h
  have hselectors : (t :: rest).flatMap Tree.selectors ≠ [] :=
    List.append_ne_nil_of_left_ne_nil t.selectors_ne_nil _
  have htotal := (tallies_ofSelectors ((t :: rest).flatMap Tree.selectors)).total
  intro hnil
  rw [ofTrees] at hnil
  rw [hnil, List.map_nil, List.sum_nil] at htotal
  exact hselectors (List.length_eq_zero_iff.mp htotal.symm)

theorem Inventory.length_lines (inventory : Inventory) (counted : Bool) :
    (inventory.lines counted).length = inventory.length := by
  cases counted with
  | true => exact (List.length_map _).trans (List.mergeSort_perm _ _).length_eq
  | false => exact (List.mergeSort_perm _ _).length_eq.trans (List.length_map _)

/-- All files with their trees. -/
theorem TreeFile.loadAll_eq_ok_iff {files : List TreeFile} {trees : List (String × Tree)} :
    loadAll files = .ok trees ↔
      List.Forall₂ (fun f e => f.path = e.1 ∧ f.load = .ok e.2) files trees := by
  induction files generalizing trees with
  | nil =>
    rw [loadAll, List.forall₂_nil_left_iff]
    exact ⟨fun h => by cases h; rfl, fun h => by rw [h]⟩
  | cons f files ih =>
    rw [List.forall₂_cons_left_iff]
    cases hf : f.load with
    | error e =>
      rw [loadAll_cons_of_error hf]
      constructor
      · intro h
        cases h
      · rintro ⟨_, _, ⟨-, hload⟩, -⟩
        cases hload
    | ok tree =>
      rw [loadAll_cons_of_ok hf, map_eq_ok_iff]
      constructor
      · rintro ⟨rest, hrest, rfl⟩
        exact ⟨(f.path, tree), rest, ⟨rfl, rfl⟩, ih.mp hrest, rfl⟩
      · rintro ⟨⟨path, tree'⟩, rest, ⟨hpath, hload⟩, hrest, rfl⟩
        obtain rfl : f.path = path := hpath
        cases hload
        exact ⟨rest, ih.mpr hrest, rfl⟩

theorem TreeFile.loadAll_ne_nil {files : List TreeFile} {trees : List (String × Tree)}
    (h : loadAll files = .ok trees) (hne : files ≠ []) : trees ≠ [] := by
  have hlength := (loadAll_eq_ok_iff.mp h).length_eq
  rw [← List.length_pos_iff] at hne ⊢
  omega

namespace CommandLine

/-! ### Reports on trees -/

/-- The lines of a report on some trees. -/
def Options.lines (o : Options) (trees : List (String × Tree)) : List String :=
  if o.selectors then (Inventory.ofTrees (trees.map Prod.snd)).lines o.count
  else trees.map (queryLine (1 < trees.length))

theorem Options.ofLines_lines {o : Options} (h : o.selectors = false)
    (trees : List (String × Tree)) : .ofLines (o.lines trees) = reportQueries trees := by
  rw [lines, h]
  rfl

theorem Options.lines_ne_nil (o : Options) {trees : List (String × Tree)} (h : trees ≠ []) :
    o.lines trees ≠ [] := by
  rw [lines]
  split
  · have hinventory : Inventory.ofTrees (trees.map Prod.snd) ≠ [] :=
      Inventory.ofTrees_ne_nil (by simpa using h)
    rw [← List.length_pos_iff, Inventory.length_lines]
    exact List.length_pos_iff.mpr hinventory
  · simpa using h

/-- Trees are always reported on: their inventory is not empty. -/
theorem Options.report_of_loadAll (o : Options) {wording : String → String}
    {files : List TreeFile} {trees : List (String × Tree)}
    (h : TreeFile.loadAll files = .ok trees) (hne : trees ≠ []) :
    o.report wording files = .ofLines (o.lines trees) := by
  obtain ⟨first, rest, rfl⟩ := List.exists_cons_of_ne_nil hne
  rw [report, h, lines]
  dsimp only
  split
  · have hinventory : (Inventory.ofTrees ((first :: rest).map Prod.snd)).isEmpty = false := by
      simpa using Inventory.ofTrees_ne_nil (List.cons_ne_nil first.2 (rest.map Prod.snd))
    rw [reportSelectors, hinventory]
    rfl
  · rfl

/-- Lines make a text that is not empty. -/
theorem Report.text_ne_empty {lines : List String} (h : lines ≠ []) : text lines ≠ "" := by
  obtain ⟨line, rest, rfl⟩ := List.exists_cons_of_ne_nil h
  intro hempty
  have hchars := congrArg String.toList hempty
  simp [text] at hchars

@[simp]
theorem Report.code_failure (complaint : String) : (failure complaint).status.code = 2 := rfl

@[simp]
theorem Report.code_empty : empty.status.code = 1 := rfl

@[simp]
theorem Report.code_ofLines (lines : List String) : (ofLines lines).status.code = 0 := rfl

/-! ### The four ways to end -/

/-- No source of trees is given. -/
def Options.NoSource (o : Options) : Prop := o.files = [] ∧ o.dir = none ∧ o.stdin = false

theorem Options.hasSource_eq_false_iff (o : Options) : o.hasSource = false ↔ o.NoSource := by
  simp [hasSource, NoSource, and_assoc]

/-- What the run of some options leaves behind. -/
inductive Options.Ends (o : Options) (s : Surroundings) : Report → Prop where
  | noSource : o.NoSource → Ends o s (.failure CommandLine.noSource)
  | failed {path : String} {e : LoadError} : path ∈ o.paths s.found s.input →
    (s.file path).load = .error e → Ends o s (.failure (complaint s.wording path e))
  | nothing : ¬ o.NoSource → o.paths s.found s.input = [] → Ends o s .empty
  | reported {trees : List (String × Tree)} : o.paths s.found s.input ≠ [] →
    TreeFile.loadAll ((o.paths s.found s.input).map s.file) = .ok trees →
    Ends o s (.ofLines (o.lines trees))

theorem ends_run {arguments : List String} {s : Surroundings} {o : Options}
    (ho : Options.ofArguments s.folder arguments = .ok o) : o.Ends s (run arguments s) := by
  by_cases hsource : o.NoSource
  · have hrun : run arguments s = .failure noSource := by
      rw [run, ho]
      dsimp only
      rw [Options.run, (o.hasSource_eq_false_iff).mpr hsource]
      rfl
    rw [hrun]
    exact .noSource hsource
  · have hhas : o.hasSource = true := by
      rw [← Bool.not_eq_false, o.hasSource_eq_false_iff]
      exact hsource
    rw [run_eq_report ho hhas]
    cases hall : TreeFile.loadAll ((o.paths s.found s.input).map s.file) with
    | error failure =>
      obtain ⟨path, e⟩ := failure
      obtain ⟨before, f, after, hfiles, -, he, rfl⟩ := TreeFile.loadAll_eq_error_iff.mp hall
      have hmem : f ∈ (o.paths s.found s.input).map s.file := by simp [hfiles]
      obtain ⟨path, hpath, rfl⟩ := List.mem_map.mp hmem
      rw [Options.report, hall]
      exact .failed hpath he
    | ok trees =>
      by_cases hpaths : o.paths s.found s.input = []
      · rw [hpaths]
        exact .nothing hsource hpaths
      · rw [o.report_of_loadAll hall (TreeFile.loadAll_ne_nil hall (by simpa using hpaths))]
        exact .reported hpaths hall

theorem Options.not_noSource_of_paths_ne_nil {o : Options} {found : String → List String}
    {input : List UInt8} (h : o.paths found input ≠ []) : ¬ o.NoSource := by
  obtain ⟨path, rest, hpaths⟩ := List.exists_cons_of_ne_nil h
  have hmem : path ∈ o.paths found input := hpaths ▸ List.mem_cons_self
  rw [← o.hasSource_eq_false_iff, Options.hasSource_of_mem_paths hmem]
  exact Bool.noConfusion

namespace Options.Ends

variable {o : Options} {s : Surroundings} {r : Report}

theorem code_eq_two_iff (h : o.Ends s r) :
    r.status.code = 2 ↔ o.NoSource ∨ ∃ path ∈ o.paths s.found s.input, ¬ (s.file path).Loads := by
  cases h with
  | noSource hsource => exact iff_of_true rfl (.inl hsource)
  | failed hmem he =>
    refine iff_of_true rfl (.inr ⟨_, hmem, ?_⟩)
    rintro ⟨tree, htree⟩
    rw [he] at htree
    cases htree
  | nothing hsource hpaths =>
    refine iff_of_false (by simp) ?_
    rintro (h | ⟨path, hmem, -⟩)
    · exact hsource h
    · rw [hpaths] at hmem
      cases hmem
  | reported hne hall =>
    have hloads := (TreeFile.exists_loadAll_iff _).mp ⟨_, hall⟩
    refine iff_of_false (by simp) ?_
    rintro (h | ⟨path, hmem, hpath⟩)
    · exact not_noSource_of_paths_ne_nil hne h
    · exact hpath (hloads _ (List.mem_map_of_mem hmem))

theorem code_eq_one_iff (h : o.Ends s r) :
    r.status.code = 1 ↔ ¬ o.NoSource ∧ o.paths s.found s.input = [] := by
  cases h with
  | noSource hsource => exact iff_of_false (by simp) fun h => h.1 hsource
  | failed hmem _ => exact iff_of_false (by simp) fun h => List.ne_nil_of_mem hmem h.2
  | nothing hsource hpaths => exact iff_of_true rfl ⟨hsource, hpaths⟩
  | reported hne _ => exact iff_of_false (by simp) fun h => hne h.2

theorem code_eq_zero_iff (h : o.Ends s r) :
    r.status.code = 0 ↔ ¬ o.NoSource ∧ o.paths s.found s.input ≠ [] ∧
      ∀ path ∈ o.paths s.found s.input, (s.file path).Loads := by
  have htwo := h.code_eq_two_iff
  have hone := h.code_eq_one_iff
  have hcodes : r.status.code = 0 ↔ ¬ r.status.code = 2 ∧ ¬ r.status.code = 1 := by
    cases r.status <;> decide
  rw [hcodes, htwo, hone]
  push Not
  tauto

theorem output_ne_empty_iff (h : o.Ends s r) : r.output ≠ "" ↔ r.status.code = 0 := by
  cases h with
  | noSource => exact iff_of_false (fun h => h rfl) (by simp)
  | failed => exact iff_of_false (fun h => h rfl) (by simp)
  | nothing => exact iff_of_false (fun h => h rfl) (by simp)
  | reported hne hall =>
    have htrees := TreeFile.loadAll_ne_nil hall (by simpa using hne)
    exact iff_of_true (Report.text_ne_empty (o.lines_ne_nil htrees)) rfl

/-- A run that ends with code 0 has loaded all files and reports on their trees. -/
theorem exists_trees (h : o.Ends s r) (hcode : r.status.code = 0) :
    ∃ trees, TreeFile.loadAll ((o.paths s.found s.input).map s.file) = .ok trees ∧
      r = .ofLines (o.lines trees) := by
  cases h with
  | noSource => simp at hcode
  | failed => simp at hcode
  | nothing => simp at hcode
  | reported _ hall => exact ⟨_, hall, rfl⟩

end Options.Ends

/-! ### Other reports from the same sources -/

/-- Whatever is reported, files that do not load all, or no files, are treated in the same way. -/
theorem Options.report_alike (o p : Options) (wording : String → String)
    (files : List TreeFile) :
    (o.report wording files).status = (p.report wording files).status ∧
      (o.report wording files).complaint = (p.report wording files).complaint := by
  cases hall : TreeFile.loadAll files with
  | error failure =>
    rw [report, report, hall]
    exact ⟨rfl, rfl⟩
  | ok trees =>
    cases trees with
    | nil =>
      rw [report, report, hall]
      exact ⟨rfl, rfl⟩
    | cons first rest =>
      rw [o.report_of_loadAll hall (List.cons_ne_nil first rest),
        p.report_of_loadAll hall (List.cons_ne_nil first rest)]
      exact ⟨rfl, rfl⟩

theorem Options.SameSources.run_alike {o p : Options} (h : o.SameSources p) (s : Surroundings) :
    (o.run s).status = (p.run s).status ∧ (o.run s).complaint = (p.run s).complaint := by
  have hsource : o.hasSource = p.hasSource := by
    rw [hasSource, hasSource, h.files, h.dir, h.stdin]
  have hpaths : o.paths s.found s.input = p.paths s.found s.input := by
    rw [paths, paths, h.files, h.dir, h.stdin]
  rw [run, run, hsource, hpaths]
  split
  · exact ⟨rfl, rfl⟩
  · exact o.report_alike p s.wording _

/-! ### The main result -/

/-- **The sources decide how a run ends**: with code 2 if no source is given or a path does not
load, with code 1 if the sources name no path, and with code 0 otherwise, which is when something is
written to the output. Two accepted command lines that differ only in words that ask for another
report, such as `--selectors`, `--count` and `-v` before any `--`, end with the same code and the
same complaint. The inventory of some trees has an entry, since every tree has a selector. -/
theorem run_ends_by_sources {arguments : List String} {s : Surroundings} {o : Options}
    (ho : Options.ofArguments s.folder arguments = .ok o) :
    ((run arguments s).status.code = 2 ↔
        o.NoSource ∨ ∃ path ∈ o.paths s.found s.input, ¬ (s.file path).Loads) ∧
      ((run arguments s).status.code = 1 ↔ ¬ o.NoSource ∧ o.paths s.found s.input = []) ∧
      ((run arguments s).status.code = 0 ↔ ¬ o.NoSource ∧ o.paths s.found s.input ≠ [] ∧
        ∀ path ∈ o.paths s.found s.input, (s.file path).Loads) ∧
      ((run arguments s).output ≠ "" ↔ (run arguments s).status.code = 0) ∧
      (∀ arguments' o', Options.ofArguments s.folder arguments' = .ok o' →
        sourceWords arguments' = sourceWords arguments →
          (run arguments' s).status.code = (run arguments s).status.code ∧
            (run arguments' s).complaint = (run arguments s).complaint) ∧
      (∀ before word after, "--" ∉ before → word ∈ ["--selectors", "--count", "-v", "--verbose"] →
        sourceWords (before ++ word :: after) = sourceWords (before ++ after)) ∧
      ∀ t : Tree, t.selectors ≠ [] ∧
        ∀ trees, t ∈ trees → (Inventory.ofTrees trees).isEmpty = false := by
  have hends := ends_run ho
  refine ⟨hends.code_eq_two_iff, hends.code_eq_one_iff, hends.code_eq_zero_iff,
    hends.output_ne_empty_iff, ?_, ?_, ?_⟩
  · intro arguments' o' ho' hwords
    have hrun : run arguments s = o.run s := by rw [run, ho]
    have hrun' : run arguments' s = o'.run s := by rw [run, ho']
    obtain ⟨hstatus, hcomplaint⟩ :=
      (Options.sameSources_of_sourceWords_eq ho' ho hwords).run_alike s
    rw [hrun, hrun', hstatus, hcomplaint]
    exact ⟨rfl, rfl⟩
  · intro before word after hbefore hword
    refine sourceWords_insert hbefore ?_ after
    revert word
    decide
  · intro t
    refine ⟨t.selectors_ne_nil, fun trees ht => ?_⟩
    simpa using Inventory.ofTrees_ne_nil (List.ne_nil_of_mem ht)

/-- A folder without tree files: another report is asked for, and the code is 1 as before. -/
theorem run_ends_by_sources_of_empty_folder :
    let s : Surroundings := ⟨some "trees", fun _ => [], fun _ => .error .missing, [], fun _ => ""⟩
    (run [] s).status.code = 1 ∧ (run [] s).output = "" ∧
      (run ["-v", "--selectors", "--count"] s).status.code = 1 := by
  intro s
  have ho : Options.ofArguments s.folder [] = .ok ⟨[], some "trees", false, false, false, 0⟩ := rfl
  obtain ⟨-, hone, -, houtput, hwords, -⟩ := run_ends_by_sources ho
  have hcode := hone.mpr ⟨fun h => Option.some_ne_none _ h.2.1, rfl⟩
  refine ⟨hcode, ?_, ?_⟩
  · by_contra hne
    rw [houtput.mp hne] at hcode
    cases hcode
  · rw [(hwords ["-v", "--selectors", "--count"] ⟨[], some "trees", false, true, true, 1⟩ rfl
      (by decide)).1]
    exact hcode

end CommandLine

end QueryTree
