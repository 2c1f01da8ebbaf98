import QueryTree.Proofs.Number.Interval
import QueryTree.Proofs.Number.Positional
import QueryTree.Proofs.Number.Rounding

/-!
# The shortest decimal rounds back

The decimal that is written for a finite value rounds to that value (`roundsTo_value_chosen`), so it
tells the value from all others. This needs significands that are not too long for the search.
-/

namespace QueryTree.Number

open QueryTree.Text

/-- A format with a significand of at most 53 bits, one of which is not written. -/
structure Format.IsShort (f : Format) : Prop where
  pos_bits : 0 < f.fractionBits
  bits_le : f.fractionBits ≤ 52

theorem Format.isShort_single : Format.single.IsShort := ⟨by decide, by decide⟩

theorem Format.isShort_double : Format.double.IsShort := ⟨by decide, by decide⟩

/-! ### The interval around a value -/

namespace Interval

/-- The interval in which the decimal of a magnitude is searched. -/
def ofMagnitude (f : Format) (m : Nat) : Interval :=
  around (f.significand m) ((f.order m : Int) - f.scale)
    (f.significand m == f.hidden && decide (-(f.scale : Int) < (f.order m : Int) - f.scale))

variable (f : Format) (m : Nat)

theorem den_ofMagnitude_pos : 0 < (ofMagnitude f m).den := Nat.two_pow_pos _

/-- The ends of intervals in quarters of the smallest positive value. -/
theorem end_mul_scale (n : Nat) :
    ((n * 2 ^ ((f.order m : Int) - f.scale - 2).toNat : Nat) : ℚ) / (ofMagnitude f m).den *
      2 ^ (f.scale + 2) = ((n * 2 ^ f.order m : Nat) : ℚ) := by
  have hexp : (2 : ℚ) ^ ((f.order m : Int) - f.scale - 2).toNat * 2 ^ (f.scale + 2) =
      2 ^ f.order m * 2 ^ (2 - ((f.order m : Int) - f.scale)).toNat := by
    rw [← pow_add, ← pow_add]
    congr 1
    omega
  have hden : ((ofMagnitude f m).den : ℚ) = 2 ^ (2 - ((f.order m : Int) - f.scale)).toNat := by
    exact Nat.cast_pow _ _
  rw [hden, div_mul_eq_mul_div, div_eq_iff (by positivity)]
  push_cast
  rw [mul_assoc, hexp, mul_assoc]

theorem low_mul_scale :
    ((ofMagnitude f m).low : ℚ) / (ofMagnitude f m).den * 2 ^ (f.scale + 2) = f.lowEnd m := by
  rw [Format.lowEnd, ← end_mul_scale]
  have hnarrow : (f.significand m == f.hidden &&
      decide (-(f.scale : Int) < (f.order m : Int) - f.scale)) = decide (f.IsNarrow m) := by
    rw [Bool.eq_iff_iff, Bool.and_eq_true, beq_iff_eq, decide_eq_true_iff, decide_eq_true_iff,
      Format.IsNarrow]
    refine and_congr_right fun _ => ?_
    omega
  simp only [ofMagnitude, around, hnarrow, decide_eq_true_eq]
  rfl

theorem high_mul_scale :
    ((ofMagnitude f m).high : ℚ) / (ofMagnitude f m).den * 2 ^ (f.scale + 2) = f.highEnd m := by
  rw [Format.highEnd, ← end_mul_scale]
  rfl

/-- The interval contains the numbers that round to the magnitude. -/
theorem contains_ofMagnitude (hf : f.IsShort) (x : ℚ) :
    (ofMagnitude f m).Contains x ↔ f.RoundsTo m x := by
  have hscale : (0 : ℚ) < 2 ^ (f.scale + 2) := by positivity
  have hclosed : (ofMagnitude f m).closed = true ↔ m % 2 = 0 := by
    rw [← f.significand_mod_two m hf.pos_bits]
    exact beq_iff_eq
  unfold Contains Format.RoundsTo
  rw [← low_mul_scale, ← high_mul_scale, mul_le_mul_iff_left₀ hscale, mul_le_mul_iff_left₀ hscale,
    mul_lt_mul_iff_left₀ hscale, mul_lt_mul_iff_left₀ hscale]
  simp only [hclosed]

theorem value_mul_scale :
    ((ofMagnitude f m).value : ℚ) / (ofMagnitude f m).den * 2 ^ (f.scale + 2) =
      (4 * f.significand m * 2 ^ f.order m : Nat) :=
  end_mul_scale f m _

variable {f m}

theorem low_lt_value (hm : f.significand m ≠ 0) :
    (ofMagnitude f m).low < (ofMagnitude f m).value := by
  apply Nat.mul_lt_mul_of_pos_right _ (Nat.two_pow_pos _)
  split <;> omega

theorem low_pos (hm : f.significand m ≠ 0) : 0 < (ofMagnitude f m).low := by
  apply Nat.mul_pos _ (Nat.two_pow_pos _)
  split <;> omega

/-- The gap above a value is more than one part in `10 ^ 17` of it. -/
theorem gap_ofMagnitude (hf : f.IsShort) (m : Nat) :
    (ofMagnitude f m).value * (10 ^ 17 + 1) < (ofMagnitude f m).high * 10 ^ 17 := by
  have hbits : f.significand m < 2 * 2 ^ 52 :=
    calc f.significand m < 2 * f.hidden := f.significand_lt m
      _ ≤ 2 * 2 ^ 52 := Nat.mul_le_mul_left _ (Nat.pow_le_pow_right (by omega) hf.bits_le)
  show 4 * f.significand m * 2 ^ ((f.order m : Int) - f.scale - 2).toNat * (10 ^ 17 + 1) <
    (4 * f.significand m + 2) * 2 ^ ((f.order m : Int) - f.scale - 2).toNat * 10 ^ 17
  rw [Nat.mul_right_comm, Nat.mul_right_comm (4 * f.significand m + 2)]
  apply Nat.mul_lt_mul_of_pos_right _ (Nat.two_pow_pos _)
  omega

/-- The search in the interval of a positive value finds a number that rounds to it. -/
theorem roundsTo_firstHit (hf : f.IsShort) (hm : f.significand m ≠ 0) :
    f.RoundsTo m (((ofMagnitude f m).firstHit 18 ((ofMagnitude f m).point - 1)).1 *
      10 ^ ((ofMagnitude f m).firstHit 18 ((ofMagnitude f m).point - 1)).2) := by
  rw [← contains_ofMagnitude f m hf, ← holds_iff (den_ofMagnitude_pos f m)]
  exact firstHit_holds (den_ofMagnitude_pos f m) (low_lt_value hm) (gap_ofMagnitude hf m)

end Interval

/-! ### Values of decimals -/

namespace Decimal

/-- The number that a decimal stands for. -/
def value (d : Decimal) : ℚ := decimalValue d.digits * 10 ^ (d.point - d.digits.length)

theorem value_zero : zero.value = 0 := by
  have : decimalValue zero.digits = 0 := decimalValue_zeros 1
  rw [value, this, Nat.cast_zero, zero_mul]

/-- The zeros at the end of a list of digits are put back. -/
theorem dropZeros_append (cs : List Char) :
    ∃ k, cs = dropZeros cs ++ List.replicate k '0' := by
  obtain ⟨k, hk⟩ : ∃ k, cs.reverse.takeWhile (· == '0') = List.replicate k '0' := by
    refine ⟨_, List.eq_replicate_iff.mpr ⟨rfl, fun c hc => ?_⟩⟩
    have := List.all_eq_true.mp List.all_takeWhile c hc
    exact beq_iff_eq.mp this
  refine ⟨k, ?_⟩
  have hsplit := List.takeWhile_append_dropWhile (p := (· == '0')) (l := cs.reverse)
  rw [hk] at hsplit
  rw [dropZeros, ← List.reverse_inj, List.reverse_append, List.reverse_replicate,
    List.reverse_reverse, hsplit]

/-- The decimal of a multiple of a power of ten stands for it. -/
theorem value_ofMultiple (c : Nat) (t : Int) : (ofMultiple c t).value = c * 10 ^ t := by
  obtain ⟨k, hk⟩ := dropZeros_append (decimal c)
  have hc : c = decimalValue (dropZeros (decimal c)) * 10 ^ k := by
    have h := decimalValue_append (dropZeros (decimal c)) (List.replicate k '0')
    rw [← hk, decimalValue_decimal, decimalValue_zeros, List.length_replicate, Nat.add_zero] at h
    exact h
  have hlen : (decimal c).length = (dropZeros (decimal c)).length + k := by
    have h := congrArg List.length hk
    rwa [List.length_append, List.length_replicate] at h
  have hexp : ((decimal c).length : Int) + t - (dropZeros (decimal c)).length = k + t := by omega
  have hcast : (c : ℚ) = decimalValue (dropZeros (decimal c)) * 10 ^ k := by exact_mod_cast hc
  simp only [value, ofMultiple]
  rw [hexp, zpow_add₀ (by norm_num), zpow_natCast, ← mul_assoc, ← hcast]

end Decimal

/-! ### Rounding back -/

/-- **Rounding back**: the decimal that is written for a value rounds to it. -/
theorem roundsTo_value_chosen {f : Format} (hf : f.IsShort) (m : Nat) :
    f.RoundsTo m (Layout.chosen f (f.significand m) ((f.order m : Int) - f.scale)).value := by
  unfold Layout.chosen
  split
  case isTrue hzero =>
    obtain rfl := f.eq_zero_of_significand hzero
    rw [Decimal.value_zero, Format.RoundsTo, if_pos rfl, zero_mul, f.lowEnd_zero]
    exact ⟨by norm_num, by positivity⟩
  case isFalse hpos =>
    have h := Interval.roundsTo_firstHit hf hpos
    rwa [← Decimal.value_ofMultiple] at h

end QueryTree.Number
