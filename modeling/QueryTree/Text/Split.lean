/-!
# Lists in pieces

The pieces of a list between the places where a separator stands: the lines of a text, the names of
a path. There is one piece more than there are separators, and putting the separator between the
pieces gives the list back.
-/

namespace QueryTree.Text

variable {α : Type} [DecidableEq α]

/-- The pieces of a list between the places where a separator stands. -/
def split (sep : α) (l : List α) : List (List α) :=
  l.foldr (fun a pieces => if a = sep then [] :: pieces else pieces.modifyHead (a :: ·)) [[]]

/-- Pieces with a separator between them. -/
def joined (sep : α) : List (List α) → List α
  | [] => []
  | [piece] => piece
  | piece :: pieces => piece ++ sep :: joined sep pieces

@[simp]
theorem split_nil (sep : α) : split sep [] = [[]] := rfl

@[simp]
theorem split_cons_self (sep : α) (l : List α) : split sep (sep :: l) = [] :: split sep l := by
  simp [split]

theorem split_cons_of_ne {sep a : α} (h : a ≠ sep) (l : List α) :
    split sep (a :: l) = (split sep l).modifyHead (a :: ·) := by
  simp [split, h]

theorem split_ne_nil (sep : α) (l : List α) : split sep l ≠ [] := by
  induction l with
  | nil => simp
  | cons a l ih =>
    by_cases h : a = sep
    · subst h; simp
    · rw [split_cons_of_ne h]
      cases hs : split sep l with
      | nil => exact absurd hs ih
      | cons piece pieces => simp

/-- A separator between two lists keeps their pieces apart. -/
theorem split_append_cons (sep : α) (x y : List α) :
    split sep (x ++ sep :: y) = split sep x ++ split sep y := by
  induction x with
  | nil => simp
  | cons a x ih =>
    by_cases h : a = sep
    · subst h; simp [ih]
    · rw [List.cons_append, split_cons_of_ne h, split_cons_of_ne h, ih]
      cases hs : split sep x with
      | nil => exact absurd hs (split_ne_nil sep x)
      | cons piece pieces => simp

/-- The separator stands in no piece. -/
theorem notMem_of_mem_split {sep : α} {l piece : List α} (h : piece ∈ split sep l) :
    sep ∉ piece := by
  induction l generalizing piece with
  | nil =>
    rw [split_nil, List.mem_singleton] at h
    rw [h]
    exact List.not_mem_nil
  | cons a l ih =>
    by_cases ha : a = sep
    · subst ha
      rw [split_cons_self, List.mem_cons] at h
      rcases h with rfl | h
      · exact List.not_mem_nil
      · exact ih h
    · rw [split_cons_of_ne ha] at h
      cases hs : split sep l with
      | nil => exact absurd hs (split_ne_nil sep l)
      | cons first pieces =>
        rw [hs, List.modifyHead_cons, List.mem_cons] at h
        rcases h with rfl | h
        · have hfirst := ih (hs ▸ List.mem_cons_self)
          exact fun hmem => (List.mem_cons.mp hmem).elim (fun heq => ha heq.symm) hfirst
        · exact ih (hs ▸ List.mem_cons_of_mem first h)

/-- Putting the separator between the pieces gives the list back. -/
theorem joined_split (sep : α) (l : List α) : joined sep (split sep l) = l := by
  induction l with
  | nil => rfl
  | cons a l ih =>
    cases hs : split sep l with
    | nil => exact absurd hs (split_ne_nil sep l)
    | cons first pieces =>
      rw [hs] at ih
      by_cases ha : a = sep
      · subst ha
        rw [split_cons_self, hs, joined, ih, List.nil_append]
        exact List.cons_ne_nil first pieces
      · rw [split_cons_of_ne ha, hs, List.modifyHead_cons, ← ih]
        cases pieces <;> rfl

/-- A list without the separator is one piece. -/
theorem split_of_notMem {sep : α} {l : List α} (h : sep ∉ l) : split sep l = [l] := by
  induction l with
  | nil => simp
  | cons a l ih =>
    simp only [List.mem_cons, not_or] at h
    rw [split_cons_of_ne (Ne.symm h.1), ih h.2]
    simp

end QueryTree.Text
