import QueryTree.Number.Nearest
import QueryTree.Proofs.Number.Rounding
import QueryTree.Proofs.Number.Writing

/-!
# Converting to a wider format and back

A finite value is a number of units, its format's smallest positive value (`units`). Rounding leaves
a value of the format as it is (`nearest_eq_of_units`), and a wider format has every value of a
narrower one (`IsWithin`), so a pattern that is a number survives the way to the wider format and
back (`convert_convert`).
-/

namespace QueryTree.Number.Format

variable {f g : Format} {m : Nat}

/-! ### Units -/

/-- A finite magnitude in units of the smallest positive value. -/
def units (f : Format) (m : Nat) : Nat := f.significand m * 2 ^ f.order m

theorem order_eq_zero (h : m < 2 * f.hidden) : f.order m = 0 := by
  have hquot : m / f.hidden < 2 := (Nat.div_lt_iff_lt_mul f.hidden_pos).mpr h
  unfold order
  omega

/-- The magnitudes of the smallest order are their own numbers of units. -/
theorem units_eq_self (h : m < 2 * f.hidden) : f.units m = m := by
  have hsum := f.order_mul_hidden_add m
  rw [order_eq_zero h, Nat.zero_mul, Nat.zero_add] at hsum
  rw [units, order_eq_zero h, hsum, Nat.pow_zero, Nat.mul_one]

/-- Twice a value is a value, at most one order above it. -/
theorem exists_twice (f : Format) (m : Nat) :
    ∃ n, f.units n = f.units m * 2 ∧ n ≤ m + f.hidden := by
  by_cases hsmall : m < f.hidden
  · refine ⟨m * 2, ?_, by omega⟩
    rw [units_eq_self (by omega), units_eq_self (by omega)]
  · have hpos := f.hidden_pos
    have hquot : 1 ≤ m / f.hidden := (Nat.le_div_iff_mul_le hpos).mpr (by omega)
    have horder : f.order (m + f.hidden) = f.order m + 1 := by
      have := Nat.add_div_right m hpos
      unfold order
      omega
    have hsum := f.order_mul_hidden_add m
    have hsum' := f.order_mul_hidden_add (m + f.hidden)
    rw [horder, Nat.succ_mul] at hsum'
    have hsig : f.significand (m + f.hidden) = f.significand m := by omega
    exact ⟨m + f.hidden, by rw [units, units, horder, hsig, Nat.pow_succ, Nat.mul_assoc], le_rfl⟩

/-- A significand times a power of two is a value. -/
theorem exists_units {s : Nat} (hs : s < 2 * f.hidden) (k : Nat) :
    ∃ n, f.units n = s * 2 ^ k ∧ n ≤ s + k * f.hidden := by
  induction k with
  | zero => exact ⟨s, by rw [units_eq_self hs, Nat.pow_zero, Nat.mul_one], by omega⟩
  | succ k ih =>
    obtain ⟨n, hunits, hle⟩ := ih
    obtain ⟨n', hunits', hle'⟩ := f.exists_twice n
    refine ⟨n', by rw [hunits', hunits, Nat.pow_succ, Nat.mul_assoc], ?_⟩
    rw [Nat.succ_mul]
    omega

/-! ### Rounding a value -/

/-- The order of a value is that of its leading bit. -/
theorem log2_units (f : Format) (m : Nat) : (f.units m).log2 - f.fractionBits = f.order m := by
  have hhidden : f.hidden = 2 ^ f.fractionBits := rfl
  have hlt := f.significand_lt m
  by_cases horder : f.order m = 0
  · rw [units, horder, Nat.pow_zero, Nat.mul_one]
    by_cases hzero : f.significand m = 0
    · simp [hzero]
    · have := (Nat.log2_lt (k := f.fractionBits + 1) hzero).mpr (by rw [Nat.pow_succ]; omega)
      omega
  · have hge := f.hidden_le_significand (Nat.pos_of_ne_zero horder)
    have hlow : 2 ^ (f.fractionBits + f.order m) ≤ f.units m := by
      rw [Nat.pow_add, units]
      exact Nat.mul_le_mul_right _ hge
    have hhigh : f.units m < 2 ^ (f.fractionBits + f.order m + 1) := by
      rw [Nat.pow_succ', Nat.pow_add, ← Nat.mul_assoc, units]
      exact Nat.mul_lt_mul_of_pos_right hlt (Nat.two_pow_pos _)
    have hne : f.units m ≠ 0 := by
      have := Nat.two_pow_pos (f.fractionBits + f.order m)
      omega
    rw [(Nat.log2_eq_iff hne).mpr ⟨hlow, hhigh⟩, Nat.add_sub_cancel_left]

/-- A quotient without a rest is not rounded. -/
theorem roundDiv_mul {den : Nat} (hden : 0 < den) (n : Nat) : roundDiv (n * den) den = n := by
  unfold roundDiv
  simp only [Nat.mul_div_cancel _ hden, Nat.mul_mod_left]
  rw [if_pos (by omega)]

/-- Rounding leaves a value of the format as it is. -/
theorem nearest_eq_of_units {num den : Nat} (hden : 0 < den) (hm : m ≤ f.infinity)
    (h : num * 2 ^ f.scale = f.units m * den) : f.nearest num den = m := by
  have hround : roundDiv (f.units m * den) (den * 2 ^ f.order m) = f.significand m := by
    rw [units, Nat.mul_right_comm, Nat.mul_assoc]
    exact roundDiv_mul (Nat.mul_pos hden (Nat.two_pow_pos _)) _
  simp only [nearest, Nat.pow_eq]
  rw [h, Nat.mul_div_cancel _ hden, log2_units, hround, pack_order_significand,
    Nat.min_eq_right hm]

/-- The same for a significand and an exponent. -/
theorem ofBinary_eq_of_units {negative : Bool} {s : Nat} {e : Int} (hm : m ≤ f.infinity)
    (h : (s : ℚ) * 2 ^ (e + f.scale) = f.units m) :
    f.ofBinary negative s e = f.signed negative m := by
  unfold ofBinary
  congr 1
  split
  case isTrue hpos =>
    have hsplit : (2 : ℚ) ^ (e + f.scale) = 2 ^ e.toNat * 2 ^ f.scale := by
      rw [← zpow_natCast, ← zpow_natCast, ← zpow_add₀ (by norm_num), Int.toNat_of_nonneg hpos]
    apply nearest_eq_of_units Nat.one_pos hm
    rw [hsplit, ← mul_assoc] at h
    rw [Nat.mul_one]
    exact_mod_cast h
  case isFalse hneg =>
    have hsplit : (2 : ℚ) ^ f.scale = 2 ^ (e + f.scale) * 2 ^ (-e).toNat := by
      rw [← zpow_natCast, ← zpow_natCast, ← zpow_add₀ (by norm_num)]
      congr 1
      omega
    apply nearest_eq_of_units (Nat.two_pow_pos _) hm
    have hunits : (s : ℚ) * 2 ^ f.scale = f.units m * 2 ^ (-e).toNat := by
      rw [hsplit, ← mul_assoc, h]
    exact_mod_cast hunits

/-! ### Patterns -/

theorem infinity_add_hidden (f : Format) : f.infinity + f.hidden = f.signBit := by
  have hpos := Nat.two_pow_pos f.exponentBits
  rw [infinity, Nat.pow_eq, ← Nat.succ_mul, Nat.succ_eq_add_one, Nat.sub_add_cancel hpos, signBit,
    hidden, Nat.pow_eq, Nat.pow_eq, Nat.pow_add, Nat.mul_comm]

theorem infinity_lt_signBit (f : Format) : f.infinity < f.signBit := by
  have := f.infinity_add_hidden
  have := f.hidden_pos
  omega

/-- A sign and a magnitude are read back from their pattern. -/
theorem signed_div_mod (negative : Bool) (hm : m < f.signBit) :
    (f.signed negative m / f.signBit % 2 == 1) = negative ∧
      f.signed negative m % f.signBit = m := by
  have hpos : 0 < f.signBit := Nat.two_pow_pos _
  cases negative
  · simp [signed, Nat.div_eq_of_lt hm, Nat.mod_eq_of_lt hm]
  · simp [signed, Nat.add_div_left _ hpos, Nat.div_eq_of_lt hm, Nat.mod_eq_of_lt hm]

/-- A pattern is made of its sign and its magnitude. -/
theorem signed_of_pattern {bits : Nat} (h : bits < 2 * f.signBit) :
    f.signed (bits / f.signBit % 2 == 1) (bits % f.signBit) = bits := by
  have hlt : bits % f.signBit < f.signBit := Nat.mod_lt _ (Nat.two_pow_pos _)
  obtain ⟨hsign, hmagnitude⟩ := signed_div_mod (bits / f.signBit % 2 == 1) hlt
  refine eq_of_sign_of_magnitude ?_ h hsign hmagnitude
  unfold signed
  split <;> omega

/-- A pattern that is a number is a sign and a magnitude up to infinity. -/
theorem exists_signed {bits : Nat} (h : bits < 2 * f.signBit) (hnumber : f.decode bits ≠ .nan) :
    ∃ negative, ∃ m ≤ f.infinity, bits = f.signed negative m := by
  rw [ne_eq, decode_eq_nan_iff, Nat.not_lt] at hnumber
  exact ⟨_, _, hnumber, (signed_of_pattern h).symm⟩

theorem decode_signed (negative : Bool) (hm : m < f.infinity) :
    f.decode (f.signed negative m) =
      .finite negative (f.significand m) ((f.order m : Int) - f.scale) := by
  obtain ⟨hsign, hmagnitude⟩ := signed_div_mod negative (hm.trans f.infinity_lt_signBit)
  simp only [decode, hsign, hmagnitude]
  rw [if_neg (by omega), if_neg (by omega)]

theorem decode_signed_infinity (f : Format) (negative : Bool) :
    f.decode (f.signed negative f.infinity) = .infinite negative := by
  obtain ⟨hsign, hmagnitude⟩ := signed_div_mod negative f.infinity_lt_signBit
  simp only [decode, hsign, hmagnitude]
  rw [if_neg (lt_irrefl _), if_pos trivial]

/-! ### Converting -/

/-- The units of a magnitude, from its significand and its exponent. -/
theorem significand_mul_zpow (f g : Format) (m : Nat) :
    (f.significand m : ℚ) * 2 ^ ((f.order m : Int) - f.scale + g.scale) =
      f.units m * 2 ^ g.scale / 2 ^ f.scale := by
  have hsplit : (2 : ℚ) ^ ((f.order m : Int) - f.scale + g.scale) =
      2 ^ f.order m * 2 ^ g.scale / 2 ^ f.scale := by
    rw [zpow_add₀ (by norm_num), zpow_sub₀ (by norm_num), zpow_natCast, zpow_natCast, zpow_natCast,
      div_mul_eq_mul_div]
  rw [hsplit, units]
  push_cast
  rw [← mul_div_assoc, mul_assoc]

/-- A finite value is converted to the magnitude with the same value, if the other format has it. -/
theorem convert_signed (negative : Bool) {n : Nat} (hm : m < f.infinity) (hn : n ≤ g.infinity)
    (h : g.units n * 2 ^ f.scale = f.units m * 2 ^ g.scale) :
    f.convert g (f.signed negative m) = g.signed negative n := by
  have hunits : (g.units n : ℚ) * 2 ^ f.scale = f.units m * 2 ^ g.scale := by exact_mod_cast h
  rw [convert, decode_signed negative hm]
  apply ofBinary_eq_of_units hn
  rw [significand_mul_zpow, ← hunits, mul_div_cancel_right₀ _ (by positivity)]

theorem convert_signed_infinity (f g : Format) (negative : Bool) :
    f.convert g (f.signed negative f.infinity) = g.signed negative g.infinity := by
  rw [convert, decode_signed_infinity]

theorem convert_of_nan {bits : Nat} (h : f.decode bits = .nan) :
    f.convert g bits = g.notANumber := by
  rw [convert, h]

/-- Every finite value of `f` is one of `g`. -/
def IsWithin (f g : Format) : Prop :=
  ∀ m < f.infinity, ∃ n < g.infinity, g.units n * 2 ^ f.scale = f.units m * 2 ^ g.scale

/-- **A number survives the way to a wider format and back.** -/
theorem convert_convert (h : f.IsWithin g) {bits : Nat} (hbits : bits < 2 * f.signBit)
    (hnumber : f.decode bits ≠ .nan) : g.convert f (f.convert g bits) = bits := by
  obtain ⟨negative, m, hm, rfl⟩ := exists_signed hbits hnumber
  rcases Nat.lt_or_eq_of_le hm with hlt | rfl
  · obtain ⟨n, hn, hunits⟩ := h m hlt
    rw [convert_signed negative hlt hn.le hunits, convert_signed negative hn hm hunits.symm]
  · rw [convert_signed_infinity, convert_signed_infinity]

/-- A number is its own value in its own format. -/
theorem convert_self {bits : Nat} (hbits : bits < 2 * f.signBit) (hnumber : f.decode bits ≠ .nan) :
    f.convert f bits = bits := by
  obtain ⟨negative, m, hm, rfl⟩ := exists_signed hbits hnumber
  rcases Nat.lt_or_eq_of_le hm with hlt | rfl
  · exact convert_signed negative hlt hm rfl
  · exact convert_signed_infinity f f negative

/-- A conversion gives a number, or the usual pattern for none. -/
theorem convert_cases (f g : Format) (bits : Nat) :
    f.convert g bits = g.notANumber ∨
      ∃ negative, ∃ n ≤ g.infinity, f.convert g bits = g.signed negative n := by
  unfold convert
  split
  · exact .inl rfl
  · exact .inr ⟨_, _, le_rfl, rfl⟩
  · refine .inr ⟨_, _, ?_, rfl⟩
    split <;> exact min_le_left _ _

theorem convert_lt (f g : Format) (bits : Nat) : f.convert g bits < 2 * g.signBit := by
  have hsum := g.infinity_add_hidden
  have hpos := g.hidden_pos
  rcases f.convert_cases g bits with h | ⟨negative, n, hn, h⟩
  · rw [h, notANumber]
    omega
  · rw [h, signed]
    split <;> omega

theorem convert_eq_notANumber {bits : Nat} (h : g.decode (f.convert g bits) = .nan) :
    f.convert g bits = g.notANumber := by
  rcases f.convert_cases g bits with hnan | ⟨negative, n, hn, hsigned⟩
  · exact hnan
  · rw [decode_eq_nan_iff, hsigned,
      (signed_div_mod negative (hn.trans_lt g.infinity_lt_signBit)).2] at h
    exact absurd hn (Nat.not_le.mpr h)

/-- The values of the format with 32 bits are values of the one with 64 bits. -/
theorem single_isWithin_double : single.IsWithin double := by
  intro m hm
  have hscale : double.scale = (double.scale - single.scale) + single.scale := by decide
  have horder : single.order m ≤ 253 := by
    have : m / single.hidden < 255 := (Nat.div_lt_iff_lt_mul single.hidden_pos).mpr hm
    unfold order
    omega
  have hsig : single.significand m < double.hidden :=
    (single.significand_lt m).trans (by decide)
  obtain ⟨n, hunits, hle⟩ := exists_units (f := double) (s := single.significand m) (by omega)
    (single.order m + (double.scale - single.scale))
  refine ⟨n, ?_, ?_⟩
  · calc n ≤ single.significand m +
          (single.order m + (double.scale - single.scale)) * double.hidden := hle
      _ < double.hidden + (253 + (double.scale - single.scale)) * double.hidden :=
          Nat.add_lt_add_of_lt_of_le hsig (Nat.mul_le_mul_right _ (by omega))
      _ < double.infinity := by decide
  · rw [hunits, units, mul_assoc, mul_assoc, ← pow_add, ← pow_add, add_assoc, ← hscale]

end QueryTree.Number.Format
