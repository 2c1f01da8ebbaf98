import QueryTree.Text.Split

/-!
# The front of a list

A list that is cut where the first element of a kind stands can be cut in one way only.
-/

namespace QueryTree.Text

variable {α : Type} {p : α → Bool}

/-- The list is empty or begins with an element of the kind. -/
def Stops (p : α → Bool) (l : List α) : Prop := ∀ a, l.head? = some a → p a = true

theorem stops_nil : Stops p [] := fun _ h => by simp at h

theorem stops_cons {a : α} (h : p a = true) (l : List α) : Stops p (a :: l) := by
  intro b hb
  obtain rfl : a = b := by simpa using hb
  exact h

/-- Two fronts without elements of a kind are the same if the lists are, and what is behind them
stops at that kind. -/
theorem append_inj_of_stops {a b x y : List α} (ha : ∀ c ∈ a, p c = false)
    (hb : ∀ c ∈ b, p c = false) (hx : Stops p x) (hy : Stops p y) (h : a ++ x = b ++ y) :
    a = b ∧ x = y := by
  induction a generalizing b with
  | nil =>
    cases b with
    | nil => exact ⟨rfl, h⟩
    | cons c b =>
      have hc := hx c (by rw [← List.nil_append x, h]; rfl)
      rw [hb c (List.mem_cons_self ..)] at hc
      cases hc
  | cons c a ih =>
    cases b with
    | nil =>
      have hc := hy c (by rw [← List.nil_append y, ← h]; rfl)
      rw [ha c (List.mem_cons_self ..)] at hc
      cases hc
    | cons d b =>
      obtain ⟨rfl, hrest⟩ := List.cons.inj h
      obtain ⟨rfl, hxy⟩ := ih (fun e he => ha e (List.mem_cons_of_mem _ he))
        (fun e he => hb e (List.mem_cons_of_mem _ he)) hrest
      exact ⟨rfl, hxy⟩

/-- Two lists with a separator that does not occur before it are the same before and behind it. -/
theorem append_cons_inj [DecidableEq α] {c : α} {a b x y : List α} (ha : c ∉ a) (hb : c ∉ b)
    (h : a ++ c :: x = b ++ c :: y) : a = b ∧ x = y := by
  have hfree : ∀ {l : List α}, c ∉ l → ∀ d ∈ l, (d == c) = false := by
    intro l hl d hd
    rw [beq_eq_false_iff_ne]
    rintro rfl
    exact hl hd
  have hstops : ∀ l, Stops (· == c) (c :: l) := stops_cons (beq_self_eq_true c)
  obtain ⟨rfl, hrest⟩ := append_inj_of_stops (hfree ha) (hfree hb) (hstops x) (hstops y) h
  exact ⟨rfl, (List.cons.inj hrest).2⟩

end QueryTree.Text
