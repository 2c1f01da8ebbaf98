import QueryTree.Proofs.Number.Conversion

/-!
# The nearest value

Rounding to nearest with ties to even, as a statement on exact numbers: a magnitude is nearest to a
number if every other one is farther away, or just as far and the magnitude is the even one
(`Format.IsNearest`). Magnitudes from infinity on take part with the values that further orders
would give them; that is where a number becomes infinite. The numbers to which a magnitude is
nearest are those between the midpoints with its neighbours (`isNearest_iff_roundsTo`).
-/

namespace QueryTree.Number.Format

variable {f : Format} {m n : Nat} {x : ℚ}

/-! ### Values -/

/-- The pattern of a finite number. -/
def IsFinite (f : Format) (bits : Nat) : Prop := bits % f.signBit < f.infinity

instance (f : Format) (bits : Nat) : Decidable (f.IsFinite bits) :=
  inferInstanceAs (Decidable (bits % f.signBit < f.infinity))

/-- The value of a magnitude, without a sign. -/
def value (f : Format) (m : Nat) : ℚ := f.significand m * 2 ^ ((f.order m : Int) - f.scale)

theorem value_eq_units (f : Format) (m : Nat) : f.value m = f.units m / 2 ^ f.scale := by
  rw [value, units, zpow_sub₀ (by norm_num), zpow_natCast, zpow_natCast]
  push_cast
  rw [mul_div_assoc]

/-- One step of the magnitude adds one unit of its order. -/
theorem units_succ (f : Format) (m : Nat) : f.units (m + 1) = f.units m + 2 ^ f.order m := by
  unfold units
  rcases f.order_succ m with ⟨horder, hsig⟩ | ⟨horder, hsig, hsig'⟩
  · rw [horder, hsig, Nat.succ_mul]
  · rw [horder, hsig', Nat.pow_succ', ← Nat.mul_assoc, Nat.mul_comm f.hidden, ← hsig, Nat.succ_mul]

/-- Greater magnitudes have greater values. -/
theorem value_strictMono (f : Format) : StrictMono f.value := by
  apply strictMono_nat_of_lt_succ
  intro m
  rw [value_eq_units, value_eq_units, units_succ]
  gcongr
  exact Nat.lt_add_of_pos_right (Nat.two_pow_pos _)

/-- The upper end of the numbers that round to a magnitude is the midpoint with the next one. -/
theorem highEnd_eq_value (f : Format) (m : Nat) :
    (f.highEnd m : ℚ) = (f.value m + f.value (m + 1)) * 2 ^ (f.scale + 1) := by
  have hmid : f.highEnd m = (f.units m + f.units (m + 1)) * 2 := by
    rw [units_succ, highEnd, units]
    ring
  rw [hmid, value_eq_units, value_eq_units, ← add_div, pow_succ, ← mul_assoc,
    div_mul_cancel₀ _ (by positivity)]
  push_cast
  rfl

/-! ### Distances -/

/-- The nearer one of two numbers lies on the same side of their midpoint. -/
theorem abs_sub_lt_iff_lt_midpoint {a b : ℚ} (h : a < b) :
    |x - a| < |x - b| ↔ 2 * x < a + b := by
  have hsquares : (x - b) ^ 2 - (x - a) ^ 2 = (b - a) * (a + b - 2 * x) := by ring
  rw [← sq_lt_sq, ← sub_pos, hsquares, mul_pos_iff_of_pos_left (sub_pos.mpr h), sub_pos]

theorem abs_sub_eq_iff_eq_midpoint {a b : ℚ} (h : a < b) :
    |x - a| = |x - b| ↔ 2 * x = a + b := by
  have hsquares : (x - b) ^ 2 - (x - a) ^ 2 = (b - a) * (a + b - 2 * x) := by ring
  rw [← sq_eq_sq_iff_abs_eq_abs, eq_comm, ← sub_eq_zero, hsquares, mul_eq_zero,
    or_iff_right (sub_pos.mpr h).ne', sub_eq_zero, eq_comm]

theorem abs_sub_lt_iff_midpoint_lt {a b : ℚ} (h : a < b) :
    |x - b| < |x - a| ↔ a + b < 2 * x := by
  rw [← not_le, le_iff_lt_or_eq, abs_sub_lt_iff_lt_midpoint h, abs_sub_eq_iff_eq_midpoint h,
    ← le_iff_lt_or_eq, not_le]

/-! ### The nearest magnitude -/

/-- The magnitude is nearest to the number: every other one is farther away, or just as far while
this one is even. -/
def IsNearest (f : Format) (m : Nat) (x : ℚ) : Prop :=
  ∀ n, n ≠ m → |x - f.value m| < |x - f.value n| ∨ (|x - f.value m| = |x - f.value n| ∧ m % 2 = 0)

/-- Rounding to a magnitude, by the midpoints with its neighbours. -/
theorem roundsTo_iff_midpoints (hx : 0 ≤ x) :
    f.RoundsTo m x ↔
      (2 * x < f.value m + f.value (m + 1) ∨
        (2 * x = f.value m + f.value (m + 1) ∧ m % 2 = 0)) ∧
      ∀ k, m = k + 1 → f.value k + f.value m < 2 * x ∨
        (f.value k + f.value m = 2 * x ∧ m % 2 = 0) := by
  have hscale : (0 : ℚ) < 2 ^ (f.scale + 1) := by positivity
  have hdouble : x * 2 ^ (f.scale + 2) = 2 * x * 2 ^ (f.scale + 1) := by ring
  unfold RoundsTo
  rw [hdouble, highEnd_eq_value, mul_le_mul_iff_left₀ hscale, mul_lt_mul_iff_left₀ hscale]
  cases m with
  | zero =>
    have hlow : (0 : ℚ) ≤ 2 * x * 2 ^ (f.scale + 1) := by positivity
    simp [lowEnd_zero, hlow, le_iff_lt_or_eq]
  | succ k =>
    rw [← highEnd_eq_lowEnd, highEnd_eq_value, mul_le_mul_iff_left₀ hscale,
      mul_lt_mul_iff_left₀ hscale]
    by_cases heven : (k + 1) % 2 = 0
    · simp [heven, le_iff_lt_or_eq, and_comm]
    · simp [heven, and_comm]

/-- **The numbers that round to a magnitude are those to which it is nearest.** -/
theorem isNearest_iff_roundsTo (hx : 0 ≤ x) : f.IsNearest m x ↔ f.RoundsTo m x := by
  have hmono := f.value_strictMono
  rw [roundsTo_iff_midpoints hx]
  constructor
  · intro h
    refine ⟨?_, ?_⟩
    · have hlt := hmono m.lt_succ_self
      rw [← abs_sub_lt_iff_lt_midpoint hlt, ← abs_sub_eq_iff_eq_midpoint hlt]
      exact h (m + 1) (by omega)
    · rintro k rfl
      have hlt := hmono k.lt_succ_self
      rw [← abs_sub_lt_iff_midpoint_lt hlt, eq_comm, ← abs_sub_eq_iff_eq_midpoint hlt, eq_comm]
      exact h k (by omega)
  · rintro ⟨hhigh, hlow⟩ n hne
    rcases Nat.lt_or_gt_of_ne hne with hn | hn
    · obtain ⟨k, rfl⟩ : ∃ k, m = k + 1 := ⟨m - 1, by omega⟩
      -- the midpoint with a magnitude before the neighbour lies still lower
      have hle : f.value n ≤ f.value k := hmono.monotone (by omega)
      rw [abs_sub_lt_iff_midpoint_lt (hmono hn), eq_comm, abs_sub_eq_iff_eq_midpoint (hmono hn)]
      rcases hlow k rfl with h | ⟨h, heven⟩
      · exact .inl (by linarith)
      · rcases hle.lt_or_eq with hlt | heq
        · exact .inl (by linarith)
        · exact .inr ⟨by linarith, heven⟩
    · have hle : f.value (m + 1) ≤ f.value n := hmono.monotone hn
      rw [abs_sub_lt_iff_lt_midpoint (hmono hn), abs_sub_eq_iff_eq_midpoint (hmono hn)]
      rcases hhigh with h | ⟨h, heven⟩
      · exact .inl (by linarith)
      · rcases hle.lt_or_eq with hlt | heq
        · exact .inl (by linarith)
        · exact .inr ⟨by linarith, heven⟩

end QueryTree.Number.Format
