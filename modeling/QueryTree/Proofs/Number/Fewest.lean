import QueryTree.Proofs.Number.Interval

/-!
# The fewest digits

The search for the shortest decimal finds the best number of its interval (`firstHit_isBest`): none
in the interval has fewer digits, and none with as few is nearer to the value. A number of few
digits is on a coarse grid, or it lies below the power of ten of the value's first digit, which is
on every grid and nearer to the value; and a grid with a number in the interval has one next to the
value that is in the interval too.
-/

namespace QueryTree.Number

/-- Of the numbers with a property none has fewer than `n` decimal digits, and of those with at most
`n` digits none is nearer to `v` than `x`. The numbers with at most `n` digits are the multiples of
powers of ten by less than `10 ^ n`. -/
structure IsBest (P : ℚ → Prop) (v : ℚ) (n : Nat) (x : ℚ) : Prop where
  fewest : ∀ (k c : Nat) (t : Int), c < 10 ^ k → P (c * 10 ^ t) → n ≤ k
  nearest : ∀ (c : Nat) (t : Int), c < 10 ^ n → P (c * 10 ^ t) → |x - v| ≤ |c * 10 ^ t - v|

/-- The property matters on numbers that are not negative only. -/
theorem IsBest.of_iff {P Q : ℚ → Prop} {v : ℚ} {n : Nat} {x : ℚ} (h : IsBest P v n x)
    (hiff : ∀ y, 0 ≤ y → (P y ↔ Q y)) : IsBest Q v n x where
  fewest k c t hc hq := h.fewest k c t hc ((hiff _ (by positivity)).mpr hq)
  nearest c t hc hq := h.nearest c t hc ((hiff _ (by positivity)).mpr hq)

/-- What is best with `n` digits is best with fewer. -/
theorem IsBest.of_le {P : ℚ → Prop} {v : ℚ} {m n : Nat} {x : ℚ} (h : IsBest P v n x) (hm : m ≤ n) :
    IsBest P v m x where
  fewest k c t hc hp := hm.trans (h.fewest k c t hc hp)
  nearest c t hc hp := h.nearest c t (hc.trans_le (Nat.pow_le_pow_right (by omega) hm)) hp

namespace Interval

variable {i : Interval}

/-! ### Between two numbers of the interval -/

theorem Contains.between {x y z : ℚ} (hx : i.Contains x) (hz : i.Contains z) (hxy : x ≤ y)
    (hyz : y ≤ z) : i.Contains y := by
  unfold Contains at *
  split at hx
  case isTrue h =>
    rw [if_pos h] at hz ⊢
    exact ⟨hx.1.trans hxy, hyz.trans hz.2⟩
  case isFalse h =>
    rw [if_neg h] at hz ⊢
    exact ⟨hx.1.trans_le hxy, hyz.trans_lt hz.2⟩

/-- A number between another one and the value is at least as near to the value. -/
theorem abs_sub_le_of_between {x y v : ℚ} (h : (x ≤ y ∧ y ≤ v) ∨ (v ≤ y ∧ y ≤ x)) :
    |y - v| ≤ |x - v| := by
  rcases h with ⟨hxy, hyv⟩ | ⟨hvy, hyx⟩
  · rw [abs_of_nonpos (by linarith), abs_of_nonpos (by linarith)]
    linarith
  · rw [abs_of_nonneg (by linarith), abs_of_nonneg (by linarith)]
    linarith

/-! ### One grid -/

/-- The distances that the search compares are those of the two neighbours from the value. -/
theorem below_nearer_iff (hden : 0 < i.den) (t : Int) :
    i.value * 10 ^ (-t).toNat - i.below t * (i.den * 10 ^ t.toNat) <
        (i.below t + 1) * (i.den * 10 ^ t.toNat) - i.value * 10 ^ (-t).toNat ↔
      |i.below t * (10 : ℚ) ^ t - i.value / i.den| <
        |(i.below t + 1 : Nat) * (10 : ℚ) ^ t - i.value / i.den| := by
  have hbelow := below_mul_le hden t
  have habove := lt_below_succ_mul hden t
  rw [abs_of_nonpos (by linarith), abs_of_pos (by linarith)]
  obtain ⟨k, hk, hends, hmultiple⟩ := exists_scale hden t
  rw [← mul_le_mul_iff_left₀ hk, hends, hmultiple, Nat.cast_le] at hbelow
  rw [← mul_lt_mul_iff_left₀ hk, hends, hmultiple, Nat.cast_lt] at habove
  rw [← mul_lt_mul_iff_left₀ hk, neg_mul, sub_mul, sub_mul, hends, hmultiple, hmultiple, neg_sub,
    ← Nat.cast_sub hbelow, ← Nat.cast_sub habove.le, Nat.cast_lt]

/-- A grid of which a neighbour of the value is in the interval hits, and not farther away. -/
theorem exists_hit?_of_neighbour (hden : 0 < i.den) {t : Int} {n : Nat}
    (hn : n = i.below t ∨ n = i.below t + 1) (h : i.Contains (n * 10 ^ t)) :
    ∃ c, i.hit? t = some c ∧
      |c * (10 : ℚ) ^ t - i.value / i.den| ≤ |n * (10 : ℚ) ^ t - i.value / i.den| := by
  rw [← holds_iff hden] at h
  have hnearer := below_nearer_iff hden t
  unfold hit?
  simp only [Nat.pow_eq]
  rw [← below]
  rcases hn with rfl | rfl
  case inl =>
    rw [h]
    cases i.holds t (i.below t + 1)
    case false => exact ⟨_, rfl, le_rfl⟩
    case true =>
      refine ⟨_, rfl, ?_⟩
      split
      case isTrue => exact le_rfl
      case isFalse hge => exact not_lt.mp fun hlt => hge (hnearer.mpr hlt)
  case inr =>
    rw [h]
    cases i.holds t (i.below t)
    case false => exact ⟨_, rfl, le_rfl⟩
    case true =>
      refine ⟨_, rfl, ?_⟩
      split
      case isTrue hlt => exact (hnearer.mp hlt).le
      case isFalse => exact le_rfl

/-- **A grid with a number in the interval hits**, and none of its numbers in the interval is nearer
to the value than the hit. -/
theorem exists_hit? (hden : 0 < i.den) (hvalue : i.Contains (i.value / i.den)) {t : Int} {n : Nat}
    (h : i.Contains (n * 10 ^ t)) :
    ∃ c, i.hit? t = some c ∧
      |c * (10 : ℚ) ^ t - i.value / i.den| ≤ |n * (10 : ℚ) ^ t - i.value / i.den| := by
  have hbelow := below_mul_le hden t
  have habove := lt_below_succ_mul hden t
  rcases le_or_gt n (i.below t) with hn | hn
  · have hle : (n : ℚ) * 10 ^ t ≤ i.below t * 10 ^ t := by
      gcongr
    obtain ⟨c, hc, hnear⟩ := exists_hit?_of_neighbour hden (.inl rfl) (h.between hvalue hle hbelow)
    exact ⟨c, hc, hnear.trans (abs_sub_le_of_between (.inl ⟨hle, hbelow⟩))⟩
  · have hle : ((i.below t + 1 : Nat) : ℚ) * 10 ^ t ≤ n * 10 ^ t := by
      gcongr
      exact hn
    obtain ⟨c, hc, hnear⟩ :=
      exists_hit?_of_neighbour hden (.inr rfl) (hvalue.between h habove.le hle)
    exact ⟨c, hc, hnear.trans (abs_sub_le_of_between (.inr ⟨habove.le, hle⟩))⟩

/-! ### Numbers of few digits -/

/-- The grid for `k + 1` digits hits if a number of at most so many digits is in the interval. -/
theorem exists_hit?_of_lt_pow (hden : 0 < i.den) (hpos : 0 < i.value)
    (hvalue : i.Contains (i.value / i.den)) {k c : Nat} {t : Int} (hc : c < 10 ^ (k + 1))
    (h : i.Contains (c * 10 ^ t)) :
    ∃ b, i.hit? (i.point - 1 - k) = some b ∧
      |b * (10 : ℚ) ^ (i.point - 1 - k) - i.value / i.den| ≤
        |c * (10 : ℚ) ^ t - i.value / i.den| := by
  by_cases ht : i.point - 1 - k ≤ t
  · -- the number is on the grid
    obtain ⟨j, rfl⟩ : ∃ j : Nat, t = i.point - 1 - k + j :=
      ⟨(t - (i.point - 1 - k)).toNat, by omega⟩
    have hgrid : (c : ℚ) * 10 ^ (i.point - 1 - k + j) =
        (c * 10 ^ j : Nat) * 10 ^ (i.point - 1 - k) := by
      rw [zpow_add₀ (by norm_num), zpow_natCast]
      push_cast
      ring
    rw [hgrid] at h ⊢
    exact exists_hit? hden hvalue h
  · -- the number is at most the power of ten of the first digit, which is on the grid
    have hgrid : (10 : ℚ) ^ (i.point - 1) = (10 ^ k : Nat) * 10 ^ (i.point - 1 - k) := by
      rw [Nat.cast_pow, Nat.cast_ofNat, ← zpow_natCast, ← zpow_add₀ (by norm_num)]
      congr 1
      omega
    have hle : (c : ℚ) * 10 ^ t ≤ 10 ^ (i.point - 1) :=
      calc (c : ℚ) * 10 ^ t ≤ 10 ^ (k + 1) * 10 ^ t := by
            gcongr
            exact_mod_cast hc.le
        _ = 10 ^ (((k + 1 : Nat) : Int) + t) := by
            rw [zpow_add₀ (by norm_num), zpow_natCast]
        _ ≤ 10 ^ (i.point - 1) := zpow_le_zpow_right₀ (by norm_num) (by omega)
    have hfirst := ten_zpow_point_le hden hpos
    have hcontains := h.between hvalue hle hfirst
    have hnear := abs_sub_le_of_between (.inl ⟨hle, hfirst⟩)
    rw [hgrid] at hcontains hnear
    obtain ⟨b, hb, hbnear⟩ := exists_hit? hden hvalue hcontains
    exact ⟨b, hb, hbnear.trans hnear⟩

/-- A hit on the grid for `k + 1` digits has at most so many digits, or is the power of ten after
them. -/
theorem le_pow_of_hit? (hden : 0 < i.den) (hpos : 0 < i.value) {k c : Nat}
    (h : i.hit? (i.point - 1 - k) = some c) : c ≤ 10 ^ (k + 1) := by
  have hlt : (i.below (i.point - 1 - k) : ℚ) * 10 ^ (i.point - 1 - k) <
      10 ^ (k + 1) * 10 ^ (i.point - 1 - k) :=
    calc (i.below (i.point - 1 - k) : ℚ) * 10 ^ (i.point - 1 - k) ≤ i.value / i.den :=
          below_mul_le hden _
      _ < 10 ^ i.point := lt_ten_zpow_point hden hpos
      _ = 10 ^ (k + 1) * 10 ^ (i.point - 1 - k) := by
          rw [← zpow_natCast, ← zpow_add₀ (by norm_num)]
          congr 1
          push_cast
          ring
  have hbelow : i.below (i.point - 1 - k) < 10 ^ (k + 1) := by
    exact_mod_cast lt_of_mul_lt_mul_right hlt (by positivity)
  rcases (neighbour_of_hit? h).1 with rfl | rfl
  · exact hbelow.le
  · exact hbelow

/-! ### The search -/

/-- **The search finds the best number of the interval**, on the grid for as many digits as it
has. -/
theorem firstHit_isBest (hden : 0 < i.den) (hzero : 0 < i.low) (hlow : i.low < i.value)
    (hhigh : i.value * (10 ^ 17 + 1) < i.high * 10 ^ 17) :
    ∃ n c t, i.firstHit 18 (i.point - 1) = (c, t) ∧ 0 < n ∧ 0 < c ∧ c ≤ 10 ^ n ∧
      IsBest i.Contains (i.value / i.den) n (c * 10 ^ t) := by
  have hpos : 0 < i.value := by omega
  have hden' : (0 : ℚ) < i.den := by exact_mod_cast hden
  have hvalue : i.Contains (i.value / i.den) := by
    apply contains_of_between
    · gcongr
    · gcongr
      omega
  have hnonzero : ∀ t : Int, ¬ i.Contains ((0 : Nat) * 10 ^ t) := by
    intro t
    rw [Nat.cast_zero, zero_mul]
    have hlow' : (0 : ℚ) < i.low / i.den := by
      have : (0 : ℚ) < i.low := by exact_mod_cast hzero
      positivity
    unfold Contains
    split
    · exact fun h => hlow'.not_ge h.1
    · exact fun h => hlow'.not_gt h.1
  obtain ⟨k, -, c, hfirst, hhit, hnone⟩ :=
    exists_firstHit (n := 18) ⟨17, by omega, isSome_hit?_finest hden hlow hhigh⟩
  have hc : 0 < c := by
    rw [Nat.pos_iff_ne_zero]
    rintro rfl
    exact hnonzero _ ((holds_iff hden _ _).mp (neighbour_of_hit? hhit).2)
  refine ⟨k + 1, c, _, hfirst, k.succ_pos, hc, le_pow_of_hit? hden hpos hhit, ?_, ?_⟩
  · -- fewer digits would have hit before
    intro n d t hd hcontains
    by_contra hlt
    cases n with
    | zero =>
      obtain rfl : d = 0 := by omega
      exact hnonzero t hcontains
    | succ n =>
      obtain ⟨b, hb, -⟩ := exists_hit?_of_lt_pow hden hpos hvalue hd hcontains
      rw [hnone n (by omega)] at hb
      cases hb
  · intro d t hd hcontains
    obtain ⟨b, hb, hnear⟩ := exists_hit?_of_lt_pow hden hpos hvalue hd hcontains
    rw [hhit] at hb
    cases hb
    exact hnear

end Interval

end QueryTree.Number
