import Mathlib.Algebra.Order.Field.Power
import Mathlib.Data.Rat.Cast.Order
import Mathlib.Tactic.Linarith
import Mathlib.Tactic.Positivity
import QueryTree.Number.Format

/-!
# The numbers that round to a value

The rational numbers that round to a finite value of a format form an interval from halfway to the
value before to halfway to the value after. The intervals of neighbouring magnitudes have an end in
common (`highEnd_eq_lowEnd`), which belongs to the even one of the two, so a number rounds to one
magnitude only (`RoundsTo.unique`). Ends are natural numbers, in quarters of the smallest positive
value.
-/

namespace QueryTree.Number.Format

variable (f : Format) (m : Nat)

/-! ### Orders and significands -/

theorem hidden_pos : 0 < f.hidden := Nat.two_pow_pos _

theorem order_mul_hidden_add : f.order m * f.hidden + f.significand m = m :=
  f.pack_order_significand m

theorem significand_lt : f.significand m < 2 * f.hidden := by
  have hpos := f.hidden_pos
  have hdiv := Nat.lt_div_mul_add (a := m) hpos
  have hsum := f.order_mul_hidden_add m
  have hquot : m / f.hidden ≤ f.order m + 1 := by
    unfold order
    omega
  have hmul := Nat.mul_le_mul_right f.hidden hquot
  rw [Nat.succ_mul] at hmul
  omega

/-- Above the smallest order the significand has its full length. -/
theorem hidden_le_significand {m : Nat} (h : 0 < f.order m) : f.hidden ≤ f.significand m := by
  have hdiv := Nat.div_mul_le_self m f.hidden
  have hsum := f.order_mul_hidden_add m
  have hquot : m / f.hidden = f.order m + 1 := by
    unfold order at h ⊢
    omega
  rw [hquot, Nat.succ_mul] at hdiv
  omega

/-- Only zero has no significand. -/
theorem eq_zero_of_significand {m : Nat} (h : f.significand m = 0) : m = 0 := by
  have hsum := f.order_mul_hidden_add m
  have hpos := f.hidden_pos
  have horder : f.order m = 0 := by
    by_contra hne
    have := f.hidden_le_significand (Nat.pos_of_ne_zero hne)
    omega
  rw [horder, h] at hsum
  omega

/-- A magnitude and its significand are even together. -/
theorem significand_mod_two (hf : 0 < f.fractionBits) : f.significand m % 2 = m % 2 := by
  have hsum := f.order_mul_hidden_add m
  obtain ⟨k, hk⟩ : 2 ∣ f.order m * f.hidden :=
    Dvd.dvd.mul_left (dvd_pow_self 2 (by omega)) _
  omega

/-- One step of the magnitude is one step of the significand, or the smallest significand of the
next order after the greatest one. -/
theorem order_succ :
    (f.order (m + 1) = f.order m ∧ f.significand (m + 1) = f.significand m + 1) ∨
      (f.order (m + 1) = f.order m + 1 ∧ f.significand m + 1 = 2 * f.hidden ∧
        f.significand (m + 1) = f.hidden) := by
  have hsum := f.order_mul_hidden_add m
  have hsum' := f.order_mul_hidden_add (m + 1)
  have hlt := f.significand_lt m
  have hstep : f.order (m + 1) = f.order m ∨ f.order (m + 1) = f.order m + 1 := by
    have := Nat.succ_div (a := m) (b := f.hidden)
    unfold order
    split at this <;> omega
  rcases hstep with hstep | hstep
  · rw [hstep] at hsum'
    exact .inl ⟨hstep, by omega⟩
  · have hge := f.hidden_le_significand (m := m + 1) (by omega)
    rw [hstep, Nat.succ_mul] at hsum'
    exact .inr ⟨hstep, by omega⟩

/-! ### Ends of intervals -/

/-- The values before the magnitude lie twice as close as those after it. -/
def IsNarrow : Prop := f.significand m = f.hidden ∧ 0 < f.order m

instance : Decidable (f.IsNarrow m) :=
  inferInstanceAs (Decidable (f.significand m = f.hidden ∧ 0 < f.order m))

/-- The lower end of the numbers that round to a magnitude. -/
def lowEnd : Nat := (4 * f.significand m - if f.IsNarrow m then 1 else 2) * 2 ^ f.order m

/-- The upper end of the numbers that round to a magnitude. -/
def highEnd : Nat := (4 * f.significand m + 2) * 2 ^ f.order m

theorem lowEnd_zero : f.lowEnd 0 = 0 := by
  have hsig : f.significand 0 = 0 := by
    have := f.order_mul_hidden_add 0
    omega
  rw [lowEnd, hsig, Nat.mul_zero, Nat.zero_sub, Nat.zero_mul]

/-- The intervals of neighbours meet. -/
theorem highEnd_eq_lowEnd : f.highEnd m = f.lowEnd (m + 1) := by
  unfold highEnd lowEnd
  rcases f.order_succ m with ⟨horder, hsig⟩ | ⟨horder, hsig, hsig'⟩
  · have hnarrow : ¬ f.IsNarrow (m + 1) := by
      rintro ⟨hhidden, hpos⟩
      have := f.hidden_le_significand (m := m) (by omega)
      omega
    rw [if_neg hnarrow, horder, hsig]
    rfl
  · have hnarrow : f.IsNarrow (m + 1) := ⟨hsig', by omega⟩
    rw [if_pos hnarrow, horder, hsig', Nat.pow_succ', ← Nat.mul_assoc]
    congr 1
    omega

theorem lowEnd_lt_highEnd : f.lowEnd m < f.highEnd m := by
  unfold lowEnd highEnd
  apply Nat.mul_lt_mul_of_pos_right _ (Nat.two_pow_pos _)
  omega

/-- The interval of a magnitude lies before those of all later magnitudes. -/
theorem highEnd_le_lowEnd {m n : Nat} (h : m < n) : f.highEnd m ≤ f.lowEnd n := by
  induction n, h using Nat.le_induction with
  | base => exact (f.highEnd_eq_lowEnd m).le
  | succ n _ ih =>
    calc f.highEnd m ≤ f.lowEnd n := ih
      _ ≤ f.highEnd n := (f.lowEnd_lt_highEnd n).le
      _ = f.lowEnd (n + 1) := f.highEnd_eq_lowEnd n

/-! ### Rounding -/

/-- The number rounds to the magnitude: it lies between the ends, which are included for an even
magnitude. -/
def RoundsTo (x : ℚ) : Prop :=
  if m % 2 = 0 then
    (f.lowEnd m : ℚ) ≤ x * 2 ^ (f.scale + 2) ∧ x * 2 ^ (f.scale + 2) ≤ f.highEnd m
  else (f.lowEnd m : ℚ) < x * 2 ^ (f.scale + 2) ∧ x * 2 ^ (f.scale + 2) < f.highEnd m

variable {f m} {n : Nat} {x : ℚ}

theorem RoundsTo.between (h : f.RoundsTo m x) :
    (f.lowEnd m : ℚ) ≤ x * 2 ^ (f.scale + 2) ∧ x * 2 ^ (f.scale + 2) ≤ f.highEnd m := by
  unfold RoundsTo at h
  split at h
  · exact h
  · exact ⟨h.1.le, h.2.le⟩

/-- Only even magnitudes have ends that round to them. -/
theorem RoundsTo.even_of_end (h : f.RoundsTo m x)
    (hend : x * 2 ^ (f.scale + 2) = f.lowEnd m ∨ x * 2 ^ (f.scale + 2) = f.highEnd m) :
    m % 2 = 0 := by
  by_contra hodd
  rw [RoundsTo, if_neg hodd] at h
  rcases hend with hend | hend
  · exact absurd h.1 (by rw [hend]; exact lt_irrefl _)
  · exact absurd h.2 (by rw [hend]; exact lt_irrefl _)

/-- A number does not round to a later magnitude too. -/
theorem RoundsTo.not_lt (hm : f.RoundsTo m x) (hn : f.RoundsTo n x) : ¬ m < n := by
  intro hlt
  have hle : (f.highEnd m : ℚ) ≤ f.lowEnd n := by exact_mod_cast f.highEnd_le_lowEnd hlt
  have hhigh : x * 2 ^ (f.scale + 2) = f.highEnd m :=
    le_antisymm hm.between.2 (hle.trans hn.between.1)
  have hlow : x * 2 ^ (f.scale + 2) = f.lowEnd n :=
    le_antisymm (hm.between.2.trans hle) hn.between.1
  have hmeven := hm.even_of_end (.inr hhigh)
  have hneven := hn.even_of_end (.inl hlow)
  -- the two are even, so a whole interval lies between them
  have hgap : f.highEnd m < f.lowEnd n := by
    rw [f.highEnd_eq_lowEnd m]
    exact (f.lowEnd_lt_highEnd (m + 1)).trans_le (f.highEnd_le_lowEnd (by omega))
  have hend : f.highEnd m = f.lowEnd n := by exact_mod_cast hhigh.symm.trans hlow
  omega

/-- **A number rounds to one magnitude only.** -/
theorem RoundsTo.unique (hm : f.RoundsTo m x) (hn : f.RoundsTo n x) : m = n :=
  Nat.le_antisymm (Nat.le_of_not_lt (hn.not_lt hm)) (Nat.le_of_not_lt (hm.not_lt hn))

end QueryTree.Number.Format
