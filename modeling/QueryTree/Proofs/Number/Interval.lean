import Mathlib.Algebra.Order.Field.Power
import Mathlib.Data.Nat.Cast.Order.Field
import Mathlib.Data.Rat.Cast.Order
import Mathlib.Tactic.Linarith
import Mathlib.Tactic.Positivity
import Mathlib.Tactic.Ring
import QueryTree.Number.Shortest
import QueryTree.Proofs.Text.Digits

/-!
# The search for the shortest decimal

The search over ever finer decimal grids ends inside the interval it is given (`firstHit_holds`): a
grid that is finer than the gap above the value has a number in that gap, and the eighteenth grid is
fine enough for a gap of one part in `10 ^ 17`.
-/

namespace QueryTree.Number.Interval

open QueryTree.Text

variable (i : Interval)

/-! ### Scaling -/

/-- A power of ten by the exponents that the search computes with. -/
theorem ten_zpow (t : Int) : (10 : ℚ) ^ t * 10 ^ (-t).toNat = 10 ^ t.toNat := by
  rw [← zpow_natCast, ← zpow_natCast, ← zpow_add₀ (by norm_num)]
  congr 1
  omega

/-- One factor turns the multiples of `1 / den` and those of `10 ^ t` into the natural numbers that
are compared. -/
theorem exists_scale {i : Interval} (hden : 0 < i.den) (t : Int) :
    ∃ k : ℚ, 0 < k ∧ (∀ n : Nat, (n : ℚ) / i.den * k = ((n * 10 ^ (-t).toNat : Nat) : ℚ)) ∧
      ∀ c : Nat, (c : ℚ) * 10 ^ t * k = ((c * (i.den * 10 ^ t.toNat) : Nat) : ℚ) := by
  have hden' : (0 : ℚ) < i.den := by exact_mod_cast hden
  refine ⟨i.den * 10 ^ (-t).toNat, by positivity, ?_, ?_⟩
  · intro n
    push_cast
    rw [← mul_assoc, div_mul_cancel₀ _ hden'.ne']
  · intro c
    push_cast
    rw [← ten_zpow t]
    ring

/-- The interval contains a number. -/
def Contains (x : ℚ) : Prop :=
  if i.closed then (i.low : ℚ) / i.den ≤ x ∧ x ≤ (i.high : ℚ) / i.den
  else (i.low : ℚ) / i.den < x ∧ x < (i.high : ℚ) / i.den

variable {i}

theorem holds_iff (hden : 0 < i.den) (t : Int) (c : Nat) :
    i.holds t c = true ↔ i.Contains (c * 10 ^ t) := by
  obtain ⟨k, hk, hends, hmultiple⟩ := exists_scale hden t
  unfold holds Contains
  split
  · rw [← mul_le_mul_iff_left₀ hk, hends, hmultiple,
      ← mul_le_mul_iff_left₀ (b := (c : ℚ) * 10 ^ t) hk, hends, hmultiple, Nat.cast_le, Nat.cast_le]
    simp
  · rw [← mul_lt_mul_iff_left₀ hk, hends, hmultiple,
      ← mul_lt_mul_iff_left₀ (b := (c : ℚ) * 10 ^ t) hk, hends, hmultiple, Nat.cast_lt, Nat.cast_lt]
    simp

theorem contains_of_between {x : ℚ} (hlow : (i.low : ℚ) / i.den < x)
    (hhigh : x < (i.high : ℚ) / i.den) : i.Contains x := by
  unfold Contains
  split
  · exact ⟨hlow.le, hhigh.le⟩
  · exact ⟨hlow, hhigh⟩

/-! ### Grids -/

/-- The last number of a grid that is not above the value. -/
def below (i : Interval) (t : Int) : Nat := i.value * 10 ^ (-t).toNat / (i.den * 10 ^ t.toNat)

theorem below_mul_le (hden : 0 < i.den) (t : Int) : i.below t * (10 : ℚ) ^ t ≤ i.value / i.den := by
  obtain ⟨k, hk, hends, hmultiple⟩ := exists_scale hden t
  rw [← mul_le_mul_iff_left₀ hk, hends, hmultiple, Nat.cast_le]
  exact Nat.div_mul_le_self _ _

theorem lt_below_succ_mul (hden : 0 < i.den) (t : Int) :
    (i.value : ℚ) / i.den < (i.below t + 1 : Nat) * (10 : ℚ) ^ t := by
  obtain ⟨k, hk, hends, hmultiple⟩ := exists_scale hden t
  rw [← mul_lt_mul_iff_left₀ hk, hends, hmultiple, Nat.cast_lt, Nat.succ_mul]
  exact Nat.lt_div_mul_add (by positivity)

/-- A hit is one of the two neighbours of the value, and lies in the interval. -/
theorem neighbour_of_hit? {t : Int} {c : Nat} (h : i.hit? t = some c) :
    (c = i.below t ∨ c = i.below t + 1) ∧ i.holds t c = true := by
  unfold hit? at h
  dsimp only at h
  split at h
  case h_1 hbelow habove =>
    cases h
    split
    · exact ⟨.inl rfl, hbelow⟩
    · exact ⟨.inr rfl, habove⟩
  case h_2 hbelow _ =>
    cases h
    exact ⟨.inl rfl, hbelow⟩
  case h_3 _ habove =>
    cases h
    exact ⟨.inr rfl, habove⟩
  case h_4 => cases h

/-- A grid with a number between the value and the upper end hits. -/
theorem isSome_hit? (hden : 0 < i.den) (hlow : i.low < i.value) {t : Int}
    (hgap : (i.value : ℚ) / i.den + 10 ^ t < (i.high : ℚ) / i.den) : (i.hit? t).isSome := by
  have hbelow := below_mul_le hden t
  have habove := lt_below_succ_mul hden t
  have hvalue : (i.low : ℚ) / i.den < i.value / i.den := by
    gcongr
  have hholds : i.holds t (i.below t + 1) = true := by
    rw [holds_iff hden]
    apply contains_of_between (hvalue.trans habove)
    rw [Nat.cast_succ, add_one_mul]
    linarith
  rw [below] at hholds
  simp only [hit?, Nat.pow_eq, hholds]
  cases i.holds t _ <;> rfl

/-- The search ends on the first grid that hits. -/
theorem exists_firstHit {n : Nat} {t : Int} (h : ∃ k < n, (i.hit? (t - k)).isSome) :
    ∃ k < n, ∃ c, i.firstHit n t = (c, t - k) ∧ i.hit? (t - k) = some c ∧
      ∀ j < k, i.hit? (t - j) = none := by
  induction n generalizing t with
  | zero =>
    obtain ⟨k, hk, -⟩ := h
    omega
  | succ n ih =>
    unfold firstHit
    cases hhit : i.hit? t with
    | some c =>
      refine ⟨0, by omega, c, ?_, ?_, by omega⟩
      · simp
      · rw [Nat.cast_zero, Int.sub_zero, hhit]
    | none =>
      have hshift : ∀ k : Nat, t - 1 - (k : Int) = t - ((k + 1 : Nat) : Int) := fun k => by omega
      obtain ⟨k, hk, hsome⟩ := h
      cases k with
      | zero =>
        rw [Nat.cast_zero, Int.sub_zero, hhit] at hsome
        cases hsome
      | succ k =>
        obtain ⟨l, hl, c, hfirst, hc, hnone⟩ := ih ⟨k, by omega, by rwa [hshift]⟩
        rw [hshift] at hfirst hc
        refine ⟨l + 1, by omega, c, hfirst, hc, ?_⟩
        intro j hj
        cases j with
        | zero => rw [Nat.cast_zero, Int.sub_zero, hhit]
        | succ j =>
          rw [← hshift]
          exact hnone j (by omega)

/-! ### The first digit -/

/-- The value is not less than the power of ten of its first digit. -/
theorem ten_zpow_point_le (hden : 0 < i.den) (hvalue : 0 < i.value) :
    (10 : ℚ) ^ (i.point - 1) ≤ i.value / i.den := by
  have hden' : (0 : ℚ) < i.den := by exact_mod_cast hden
  have hvalue' : (0 : ℚ) < i.value := by exact_mod_cast hvalue
  unfold point
  split
  case isTrue hle =>
    have hquot : 0 < i.value / i.den := Nat.div_pos hle hden
    have hlen := List.length_pos_iff.mpr (decimal_ne_nil (i.value / i.den))
    rw [show ((decimal (i.value / i.den)).length : Int) - 1
        = ((decimal (i.value / i.den)).length - 1 : Nat) by omega, zpow_natCast]
    calc (10 : ℚ) ^ ((decimal (i.value / i.den)).length - 1)
        ≤ ((i.value / i.den : Nat) : ℚ) := by exact_mod_cast ten_pow_length_le hquot
      _ ≤ i.value / i.den := Nat.cast_div_le
  case isFalse hlt =>
    generalize hk : (decimal ((i.den + i.value - 1) / i.value - 1)).length = k
    have hpos : 0 < k := by
      rw [← hk]
      exact List.length_pos_iff.mpr (decimal_ne_nil _)
    -- the number of values that fill one is at most a power of ten
    have hceil : (i.den + i.value - 1) / i.value - 1 < 10 ^ k :=
      (length_decimal_le_iff hpos).mp hk.le
    have hfill : i.den ≤ 10 ^ k * i.value := by
      have hdiv := Nat.lt_div_mul_add (a := i.den + i.value - 1) hvalue
      have hmul : (i.den + i.value - 1) / i.value * i.value ≤ 10 ^ k * i.value :=
        Nat.mul_le_mul_right _ (by omega)
      omega
    rw [show 1 - (k : Int) - 1 = -(k : Int) by omega, zpow_neg, zpow_natCast, le_div_iff₀ hden',
      inv_mul_le_iff₀ (by positivity)]
    exact_mod_cast hfill

/-- The value is less than the next power of ten. -/
theorem lt_ten_zpow_point (hden : 0 < i.den) (hvalue : 0 < i.value) :
    (i.value : ℚ) / i.den < 10 ^ i.point := by
  have hden' : (0 : ℚ) < i.den := by exact_mod_cast hden
  unfold point
  split
  case isTrue hle =>
    have hquot := Nat.lt_div_mul_add (a := i.value) hden
    have hpow : i.value / i.den < 10 ^ (decimal (i.value / i.den)).length :=
      (length_decimal_le_iff (List.length_pos_iff.mpr (decimal_ne_nil _))).mp le_rfl
    have hmul : (i.value / i.den + 1) * i.den ≤
        10 ^ (decimal (i.value / i.den)).length * i.den := Nat.mul_le_mul_right _ hpow
    rw [zpow_natCast, div_lt_iff₀ hden']
    exact_mod_cast (by linarith : i.value < 10 ^ (decimal (i.value / i.den)).length * i.den)
  case isFalse hlt =>
    generalize hceil : (i.den + i.value - 1) / i.value = n
    have hmul : n * i.value ≤ i.den + i.value - 1 := hceil ▸ Nat.div_mul_le_self _ _
    have htwo : 2 ≤ n := by
      rw [← hceil, Nat.le_div_iff_mul_le hvalue]
      omega
    obtain ⟨k, hk⟩ : ∃ k, (decimal (n - 1)).length = k + 1 :=
      Nat.exists_eq_succ_of_ne_zero (by simp [decimal_ne_nil])
    -- one value less than the number of values that fill one does not reach one
    have hpow : 10 ^ k ≤ n - 1 := by
      have := ten_pow_length_le (n := n - 1) (by omega)
      rwa [hk] at this
    have hfill : 10 ^ k * i.value < i.den := by
      have hle := Nat.mul_le_mul_right i.value hpow
      rw [Nat.sub_mul, Nat.one_mul] at hle
      omega
    rw [hk, show 1 - ((k + 1 : Nat) : Int) = -(k : Int) by omega, zpow_neg, zpow_natCast,
      div_lt_iff₀ hden', lt_inv_mul_iff₀ (by positivity)]
    exact_mod_cast hfill

/-! ### The search -/

/-- The finest grid hits, if the gap above the value is more than one part in `10 ^ 17` of the
value. -/
theorem isSome_hit?_finest (hden : 0 < i.den) (hlow : i.low < i.value)
    (hhigh : i.value * (10 ^ 17 + 1) < i.high * 10 ^ 17) :
    (i.hit? (i.point - 1 - (17 : Nat))).isSome := by
  apply isSome_hit? hden hlow
  have hden' : (0 : ℚ) < i.den := by exact_mod_cast hden
  have hgrid : (10 : ℚ) ^ (i.point - 1 - (17 : Nat)) = 10 ^ (i.point - 1) / 10 ^ 17 := by
    rw [zpow_sub₀ (by norm_num), zpow_natCast]
  have hstep : (10 : ℚ) ^ (i.point - 1) / 10 ^ 17 ≤ i.value / i.den / 10 ^ 17 := by
    gcongr
    exact ten_zpow_point_le hden (by omega)
  rw [hgrid]
  calc (i.value : ℚ) / i.den + (10 : ℚ) ^ (i.point - 1) / 10 ^ 17
      ≤ i.value / i.den + i.value / i.den / 10 ^ 17 := by linarith
    _ = (i.value : ℚ) * (10 ^ 17 + 1) / 10 ^ 17 / i.den := by ring
    _ < i.high / i.den := by
      gcongr
      rw [div_lt_iff₀ (by positivity)]
      exact_mod_cast hhigh

/-- **The search ends inside the interval**, if the gap above the value is more than one part in
`10 ^ 17` of the value. -/
theorem firstHit_holds (hden : 0 < i.den) (hlow : i.low < i.value)
    (hhigh : i.value * (10 ^ 17 + 1) < i.high * 10 ^ 17) :
    i.holds (i.firstHit 18 (i.point - 1)).2 (i.firstHit 18 (i.point - 1)).1 = true := by
  obtain ⟨k, -, c, hfirst, hhit, -⟩ :=
    exists_firstHit (n := 18) ⟨17, by omega, isSome_hit?_finest hden hlow hhigh⟩
  rw [hfirst]
  exact (neighbour_of_hit? hhit).2

end QueryTree.Number.Interval
