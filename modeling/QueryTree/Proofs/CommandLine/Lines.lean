import QueryTree.Proofs.CommandLine.Composition
import QueryTree.Proofs.Query.LineFeeds

/-!
# Outputs as lines

Lines that are written one after the other are read back unless a line feed stands within one of
them (`Report.endedLines_text_of_notMem`). Queries show selectors and quoted texts as they are, so a
document may put a line feed into a query. Its tree then takes more than one line, and what stands
behind the line feed may look like the line of another file (`forged_line`). `queries_by_line` says
that nothing else keeps the lines of a report from being those of its trees.
-/

namespace QueryTree

open QueryTree.Text

/-! ### Lines and their parts -/

namespace Text

/-- There is one piece more than there are separators. -/
theorem length_split {α : Type} [DecidableEq α] (sep : α) (l : List α) :
    (split sep l).length = l.count sep + 1 := by
  induction l with
  | nil => rfl
  | cons a l ih =>
    by_cases h : a = sep
    · subst h
      rw [split_cons_self, List.length_cons, ih, List.count_cons_self]
    · rw [split_cons_of_ne h, List.length_modifyHead, ih, List.count_cons_of_ne h]

/-- The lines of a text that a line feed ends. -/
def endedLines (s : String) : List String := (split '\n' s.toList).dropLast.map String.ofList

theorem length_endedLines (s : String) : (endedLines s).length = lineFeeds s := by
  rw [endedLines, List.length_map, List.length_dropLast, length_split]
  rfl

/-- A line cut at its first tab. -/
def cutAtTab? (line : String) : Option (String × String) :=
  match line.toList.dropWhile (· ≠ '\t') with
  | [] => none
  | _ :: behind => some (String.ofList (line.toList.takeWhile (· ≠ '\t')), String.ofList behind)

theorem cutAtTab?_append {a : String} (h : '\t' ∉ a.toList) (b : String) :
    cutAtTab? (a ++ "\t" ++ b) = some (a, b) := by
  have hfree : ∀ c ∈ a.toList, decide (c ≠ '\t') = true :=
    fun c hc => decide_eq_true (ne_of_mem_of_not_mem hc h)
  have hchars : (a ++ "\t" ++ b).toList = a.toList ++ '\t' :: b.toList := by simp
  rw [cutAtTab?, hchars, List.dropWhile_append_of_pos hfree, List.takeWhile_append_of_pos hfree]
  simp

end Text

/-! ### Reports as lines -/

namespace CommandLine

namespace Report

theorem text_cons (line : String) (lines : List String) :
    text (line :: lines) = line ++ "\n" ++ text lines := by
  rw [text, text, List.map_cons, String.join_cons]

theorem lineFeeds_text (lines : List String) :
    lineFeeds (text lines) = (lines.map lineFeeds).sum + lines.length := by
  have hend : lineFeeds "\n" = 1 := rfl
  induction lines with
  | nil => rfl
  | cons line lines ih =>
    rw [text_cons, lineFeeds_append, lineFeeds_append, ih, hend, List.map_cons, List.sum_cons,
      List.length_cons]
    omega

/-- There are as many lines as were written exactly if none of them has a line feed. -/
theorem length_endedLines_text_iff (lines : List String) :
    (endedLines (text lines)).length = lines.length ↔ ∀ line ∈ lines, '\n' ∉ line.toList := by
  rw [length_endedLines, lineFeeds_text, Nat.add_eq_right, List.sum_eq_zero_iff_forall_eq_nat]
  simp [lineFeeds_eq_zero_iff]

theorem endedLines_text_of_notMem {lines : List String} (h : ∀ line ∈ lines, '\n' ∉ line.toList) :
    endedLines (text lines) = lines := by
  induction lines with
  | nil => rfl
  | cons line lines ih =>
    obtain ⟨hline, hlines⟩ := List.forall_mem_cons.mp h
    have hchars : (text (line :: lines)).toList = line.toList ++ '\n' :: (text lines).toList := by
      simp [text_cons]
    have hrest := ih hlines
    rw [endedLines] at hrest ⊢
    rw [hchars, split_append_cons, List.dropLast_append_of_ne_nil (split_ne_nil _ _),
      split_of_notMem hline, List.map_append, hrest, List.map_singleton, String.ofList_toList]
    rfl

end Report

/-- A line of a report on queries has no line feed if neither its query nor its path has one. -/
theorem notMem_queryLine_iff (several : Bool) (e : String × Tree) :
    '\n' ∉ (queryLine several e).toList ↔
      e.2.OnOneLine ∧ (several = true → '\n' ∉ e.1.toList) := by
  rw [← e.2.notMem_render_iff]
  cases several with
  | true => simp [queryLine, and_comm]
  | false => simp [queryLine]

theorem cutAtTab?_queryLine {e : String × Tree} (h : '\t' ∉ e.1.toList) :
    cutAtTab? (queryLine true e) = some (e.1, e.2.render) :=
  cutAtTab?_append h _

variable {trees : List (String × Tree)}

/-- A report has one line for each tree exactly if no query has a line feed, and no path that is
written before a query. -/
theorem length_lines_iff :
    (endedLines (reportQueries trees).output).length = trees.length ↔
      (∀ e ∈ trees, e.2.OnOneLine) ∧ (2 ≤ trees.length → ∀ e ∈ trees, '\n' ∉ e.1.toList) := by
  have hiff := Report.length_endedLines_text_iff (trees.map (queryLine (1 < trees.length)))
  rw [List.length_map, List.forall_mem_map] at hiff
  simp only [notMem_queryLine_iff, decide_eq_true_eq] at hiff
  refine hiff.trans ⟨fun h => ⟨fun e he => (h e he).1, fun hseveral e he => ?_⟩, ?_⟩
  · exact (h e he).2 hseveral
  · exact fun ⟨hqueries, hpaths⟩ e he => ⟨hqueries e he, fun hseveral => hpaths hseveral e he⟩

/-- The lines of a report on several trees, whose paths have no line feed and no tab, are those of
the trees exactly if no query has a line feed. -/
theorem map_cutAtTab?_lines_iff (hseveral : 2 ≤ trees.length)
    (hpaths : ∀ e ∈ trees, '\n' ∉ e.1.toList ∧ '\t' ∉ e.1.toList) :
    (endedLines (reportQueries trees).output).map cutAtTab? =
        trees.map (fun e => some (e.1, e.2.render)) ↔ ∀ e ∈ trees, e.2.OnOneLine := by
  constructor
  · intro h
    have hlength := congrArg List.length h
    rw [List.length_map, List.length_map, length_lines_iff] at hlength
    exact hlength.1
  · intro h
    have hlines : ∀ line ∈ trees.map (queryLine true), '\n' ∉ line.toList := by
      rw [List.forall_mem_map]
      exact fun e he => (notMem_queryLine_iff true e).mpr ⟨h e he, fun _ => (hpaths e he).1⟩
    have houtput : (reportQueries trees).output = Report.text (trees.map (queryLine true)) := by
      have hlt : decide (1 < trees.length) = true := decide_eq_true hseveral
      rw [reportQueries, hlt]
      rfl
    rw [houtput, Report.endedLines_text_of_notMem hlines, List.map_map]
    exact List.map_congr_left fun e he => cutAtTab?_queryLine (hpaths e he).2

/-! ### The main result -/

/-- **The lines of a report are those of its trees, unless a line feed stands in one of them**: a
run that reports queries and ends with code 0 has as many lines as trees exactly if no selector and
no quoted text of a tree has a line feed, and no path, if the paths are written. Cut at their first
tabs, the lines of several files, whose paths have neither a line feed nor a tab, are the paths and
queries exactly if no selector and no quoted text has a line feed. -/
theorem queries_by_line {arguments : List String} {s : Surroundings} {o : Options}
    (ho : Options.ofArguments s.folder arguments = .ok o) (hqueries : o.selectors = false)
    (hdone : (run arguments s).status.code = 0) :
    ∃ trees, List.Forall₂ (fun path tree => (s.file path).load = .ok tree)
        (o.paths s.found s.input) trees ∧
      ((endedLines (run arguments s).output).length = trees.length ↔
        (∀ t ∈ trees, t.OnOneLine) ∧
          (2 ≤ trees.length → ∀ path ∈ o.paths s.found s.input, '\n' ∉ path.toList)) ∧
      (2 ≤ trees.length →
        (∀ path ∈ o.paths s.found s.input, '\n' ∉ path.toList ∧ '\t' ∉ path.toList) →
        ((endedLines (run arguments s).output).map cutAtTab? =
            ((o.paths s.found s.input).zip (trees.map Tree.render)).map some ↔
          ∀ t ∈ trees, t.OnOneLine)) := by
  obtain ⟨trees, htrees, hrun⟩ := (ends_run ho).exists_trees hdone
  rw [Options.ofLines_lines hqueries] at hrun
  have hall := List.forall₂_map_left_iff.mp (TreeFile.loadAll_eq_ok_iff.mp htrees)
  have hpaths : o.paths s.found s.input = trees.map Prod.fst := by
    rw [← List.forall₂_eq_eq_eq, List.forall₂_map_right_iff]
    exact hall.imp fun _ _ h => h.1
  refine ⟨trees.map Prod.snd, ?_, ?_, ?_⟩
  · rw [List.forall₂_map_right_iff]
    exact hall.imp fun _ _ h => h.2
  · rw [hrun, hpaths, List.length_map, List.forall_mem_map, List.forall_mem_map]
    exact length_lines_iff
  · rw [hrun, hpaths, List.length_map, List.forall_mem_map, List.forall_mem_map]
    intro hseveral hplain
    rw [← map_cutAtTab?_lines_iff hseveral hplain, List.map_map, List.zip_map', List.map_map]
    rfl

/-- A tab in a text makes no difference to the lines. -/
theorem queries_by_line_of_tab :
    let s : Surroundings := ⟨none, fun _ => [], fun path => if path = "a.yaml" then
      .ok (Text.bytes "selector: a\ncomparison: eq\nargument: \"x\\ty\"")
      else .ok (Text.bytes "selector: b\ncomparison: ne\nargument: 2"), [], fun _ => ""⟩
    (run ["a.yaml", "b.yaml"] s).status.code = 0 ∧
      (endedLines (run ["a.yaml", "b.yaml"] s).output).map cutAtTab? =
        [some ("a.yaml", "a=='x\ty'"), some ("b.yaml", "b!=2")] := by
  intro s
  have hdone : (run ["a.yaml", "b.yaml"] s).status.code = 0 := by decide +kernel
  refine ⟨hdone, ?_⟩
  have ha : (s.file "a.yaml").load.toOption = some (.constraint "a" .equals (.text "x\ty")) := by
    decide +kernel
  have hb : (s.file "b.yaml").load.toOption = some (.constraint "b" .notEquals (.int 2)) := by
    decide +kernel
  let o : Options := ⟨["a.yaml", "b.yaml"], none, false, false, false, 0⟩
  have hpaths : o.paths s.found s.input = ["a.yaml", "b.yaml"] := rfl
  obtain ⟨trees, htrees, -, hlines⟩ := @queries_by_line _ s o rfl rfl hdone
  rw [hpaths] at htrees hlines
  obtain ⟨first, rest, hfirst, hrest, rfl⟩ := List.forall₂_cons_left_iff.mp htrees
  obtain ⟨second, others, hsecond, hothers, rfl⟩ := List.forall₂_cons_left_iff.mp hrest
  obtain rfl := List.forall₂_nil_left_iff.mp hothers
  rw [hfirst] at ha
  rw [hsecond] at hb
  obtain rfl := Option.some.inj ha
  obtain rfl := Option.some.inj hb
  have hplain : ∀ path ∈ ["a.yaml", "b.yaml"], '\n' ∉ path.toList ∧ '\t' ∉ path.toList := by
    decide
  rw [(hlines (by decide) hplain).mpr (by decide +kernel)]
  decide +kernel

/-- A text with a line feed and a tab: the two trees take three lines, and the second of them looks
like that of a third file. -/
theorem forged_line :
    let s : Surroundings := ⟨none, fun _ => [], fun path => if path = "a.yaml" then
      .ok (Text.bytes "selector: a\ncomparison: eq\nargument: \"x\\nz.yaml\\tb==1\"")
      else .ok (Text.bytes "selector: c\ncomparison: eq\nargument: 2"), [], fun _ => ""⟩
    (run ["a.yaml", "b.yaml"] s).status.code = 0 ∧
      (endedLines (run ["a.yaml", "b.yaml"] s).output).length = 3 ∧
      (endedLines (run ["a.yaml", "b.yaml"] s).output).map cutAtTab? =
        [some ("a.yaml", "a=='x"), some ("z.yaml", "b==1'"), some ("b.yaml", "c==2")] := by
  decide +kernel

end CommandLine

end QueryTree
