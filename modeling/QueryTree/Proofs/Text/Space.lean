import Mathlib.Data.List.TakeWhile
import QueryTree.Text.Space

/-!
# What trimming leaves

A text is trimmed if white space alone is taken off at both ends and no more can be taken off
(`Trimmed`). That determines what is left, and `Text.trim` is what is left (`trim_eq_iff`).
-/

namespace QueryTree.Text

/-- Every character is white space. -/
def IsBlank (cs : List Char) : Prop := ∀ c ∈ cs, isSpace c = true

/-- The second list is the first one without the white space around it. -/
structure Trimmed (cs ds : List Char) : Prop where
  around : ∃ before after, IsBlank before ∧ IsBlank after ∧ cs = before ++ ds ++ after
  head : ∀ c ∈ ds.head?, isSpace c = false
  last : ∀ c ∈ ds.getLast?, isSpace c = false

variable {cs ds : List Char}

/-! ### Dropping white space -/

theorem dropLeading_append_of_isBlank (h : IsBlank cs) (ds : List Char) :
    dropLeading (cs ++ ds) = dropLeading ds :=
  List.dropWhile_append_of_pos h

theorem dropLeading_of_head (h : ∀ c ∈ cs.head?, isSpace c = false) : dropLeading cs = cs := by
  cases cs with
  | nil => rfl
  | cons c cs => exact List.dropWhile_cons_of_neg (by simp [h c rfl])

theorem dropTrailing_append_of_isBlank (h : IsBlank cs) (ds : List Char) :
    dropTrailing (ds ++ cs) = dropTrailing ds := by
  rw [dropTrailing, List.reverse_append, List.dropWhile_append_of_pos]
  · rfl
  · exact fun c hc => h c (List.mem_reverse.mp hc)

theorem dropTrailing_of_last (h : ∀ c ∈ cs.getLast?, isSpace c = false) :
    dropTrailing cs = cs := by
  have hdrop : dropLeading cs.reverse = cs.reverse := by
    refine dropLeading_of_head fun c hc => h c ?_
    rwa [List.head?_reverse] at hc
  exact List.reverse_eq_iff.mpr hdrop

theorem isBlank_iff_dropLeading : IsBlank cs ↔ dropLeading cs = [] :=
  List.dropWhile_eq_nil_iff.symm

/-! ### What is left -/

/-- What is dropped at the beginning is white space, and none is left there. -/
theorem dropLeading_spec (cs : List Char) :
    (∃ before, IsBlank before ∧ cs = before ++ dropLeading cs) ∧
      ∀ c ∈ (dropLeading cs).head?, isSpace c = false := by
  refine ⟨⟨cs.takeWhile isSpace, fun c hc => List.mem_takeWhile_imp hc,
    List.takeWhile_append_dropWhile.symm⟩, fun c hc => ?_⟩
  have hnot := List.head?_dropWhile_not isSpace cs
  rw [dropLeading] at hc
  rw [hc] at hnot
  simpa using hnot

/-- The same at the end. -/
theorem dropTrailing_spec (cs : List Char) :
    (∃ after, IsBlank after ∧ cs = dropTrailing cs ++ after) ∧
      ∀ c ∈ (dropTrailing cs).getLast?, isSpace c = false := by
  obtain ⟨⟨before, hbefore, hcs⟩, hhead⟩ := dropLeading_spec cs.reverse
  refine ⟨⟨before.reverse, fun c hc => hbefore c (List.mem_reverse.mp hc), ?_⟩, fun c hc => ?_⟩
  · rw [dropTrailing, ← List.reverse_append, ← List.reverse_eq_iff]
    exact hcs
  · rw [dropTrailing, List.getLast?_reverse] at hc
    exact hhead c hc

theorem trimmed_trimChars (cs : List Char) : Trimmed cs (trimChars cs) := by
  obtain ⟨⟨before, hbefore, hcs⟩, hhead⟩ := dropLeading_spec cs
  obtain ⟨⟨after, hafter, hrest⟩, hlast⟩ := dropTrailing_spec (dropLeading cs)
  refine ⟨⟨before, after, hbefore, hafter, ?_⟩, fun c hc => hhead c ?_, hlast⟩
  · rw [trimChars, List.append_assoc, ← hrest]
    exact hcs
  · -- what is left begins as it did before white space was dropped at its end
    rw [hrest, List.head?_append, ← trimChars, hc]
    rfl

/-- **Trimming** leaves what is left without the white space around it. -/
theorem trimChars_eq_iff : trimChars cs = ds ↔ Trimmed cs ds := by
  constructor
  · rintro rfl
    exact trimmed_trimChars cs
  · rintro ⟨⟨before, after, hbefore, hafter, rfl⟩, hhead, hlast⟩
    rw [trimChars, List.append_assoc, dropLeading_append_of_isBlank hbefore]
    cases ds with
    | nil =>
      rw [List.nil_append, isBlank_iff_dropLeading.mp hafter]
      rfl
    | cons d ds =>
      have hdrop : dropLeading (d :: ds ++ after) = d :: ds ++ after := dropLeading_of_head hhead
      rw [hdrop, dropTrailing_append_of_isBlank hafter, dropTrailing_of_last hlast]

/-- More white space around a text makes no difference to what is left. -/
theorem Trimmed.padded {before after : List Char} (h : Trimmed cs ds) (hbefore : IsBlank before)
    (hafter : IsBlank after) : Trimmed (before ++ cs ++ after) ds := by
  obtain ⟨⟨first, last, hfirst, hlast, rfl⟩, hheadBlank, hlastBlank⟩ := h
  refine ⟨⟨before ++ first, last ++ after, ?_, ?_, ?_⟩, hheadBlank, hlastBlank⟩
  · exact List.forall_mem_append.mpr ⟨hbefore, hfirst⟩
  · exact List.forall_mem_append.mpr ⟨hlast, hafter⟩
  · simp only [List.append_assoc]

/-- White space behind a text makes no difference. -/
theorem trimChars_append_of_isBlank {more : List Char} (h : IsBlank more) :
    trimChars (cs ++ more) = trimChars cs :=
  trimChars_eq_iff.mpr ((trimmed_trimChars cs).padded (fun _ hc => absurd hc List.not_mem_nil) h)

theorem trim_eq_iff {s t : String} : trim s = t ↔ Trimmed s.toList t.toList := by
  rw [← trimChars_eq_iff, trim, ← String.toList_inj, String.toList_ofList]

/-- Nothing is left of white space alone. -/
theorem trim_eq_empty_iff {s : String} : trim s = "" ↔ IsBlank s.toList := by
  rw [trim_eq_iff]
  constructor
  · rintro ⟨⟨before, after, hbefore, hafter, hs⟩, -, -⟩
    rw [hs]
    simpa [IsBlank, or_imp, forall_and] using ⟨hbefore, hafter⟩
  · intro h
    exact ⟨⟨s.toList, [], h, fun _ hc => absurd hc List.not_mem_nil, by simp⟩, by simp, by simp⟩

end QueryTree.Text
