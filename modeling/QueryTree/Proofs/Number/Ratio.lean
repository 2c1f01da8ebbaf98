import QueryTree.Proofs.Number.Nearest

/-!
# Rounding ratios

`Format.nearest` and what is built on it compute the nearest value: the magnitude they give is the
one that the ratio rounds to, up to infinity (`nearest_spec`, `ofInt_spec`, `convert_spec`).
Rounding is monotone (`RoundsTo.le_of_le`) and keeps the values of the format
(`roundsTo_value`), so no value of the format stands between a number and what it rounds to.
-/

namespace QueryTree.Number

/-! ### Quotients of natural numbers -/

/-- A rounded quotient is at most half away from the ratio, and even if it is half away. -/
theorem roundDiv_spec (num : Nat) {den : Nat} (hden : 0 < den) :
    2 * (roundDiv num den * den) ≤ 2 * num + den ∧ 2 * num ≤ 2 * (roundDiv num den * den) + den ∧
      (roundDiv num den % 2 ≠ 0 →
        2 * (roundDiv num den * den) < 2 * num + den ∧
          2 * num < 2 * (roundDiv num den * den) + den) := by
  have hsum := Nat.div_add_mod num den
  have hlt := Nat.mod_lt num hden
  unfold roundDiv
  dsimp only
  generalize num / den = q at *
  generalize num % den = r at *
  have hcomm : q * den = den * q := Nat.mul_comm _ _
  have hsucc : (q + 1) * den = den * q + den := by rw [Nat.succ_mul, hcomm]
  split
  case isTrue => omega
  case isFalse =>
    split
    case isTrue => omega
    case isFalse =>
      rcases Nat.mod_two_eq_zero_or_one q with hparity | hparity
      · rw [hparity, Nat.add_zero]
        omega
      · rw [hparity]
        omega

namespace Format

variable {f g : Format} {m n o s num den : Nat} {x y : ℚ}

/-! ### Magnitudes from orders and significands -/

theorem order_pack (ho : o = 0 ∨ f.hidden ≤ s) (hs : s < 2 * f.hidden) :
    f.order (f.pack o s) = o := by
  have hpos := f.hidden_pos
  have hquot : f.pack o s / f.hidden = s / f.hidden + o := by
    rw [pack, Nat.add_comm, Nat.add_mul_div_right _ _ hpos]
  have hlt : s / f.hidden < 2 := (Nat.div_lt_iff_lt_mul hpos).mpr hs
  rw [order, hquot]
  rcases ho with ho | ho
  · omega
  · have := (Nat.le_div_iff_mul_le hpos).mpr ((Nat.one_mul _).trans_le ho)
    omega

theorem significand_pack (ho : o = 0 ∨ f.hidden ≤ s) (hs : s < 2 * f.hidden) :
    f.significand (f.pack o s) = s := by
  rw [significand, order_pack ho hs, pack, Nat.add_sub_cancel_left]

/-- The greatest significand is followed by the smallest one of the next order. -/
theorem pack_two_hidden (f : Format) (o : Nat) :
    f.pack o (2 * f.hidden) = f.pack (o + 1) f.hidden := by
  rw [pack, pack]
  ring

/-- The upper end, also where the significand is about to overflow. -/
theorem le_highEnd_pack (ho : o = 0 ∨ f.hidden ≤ s) (hs : s ≤ 2 * f.hidden) :
    (4 * s + 2) * 2 ^ o ≤ f.highEnd (f.pack o s) := by
  have hpos := f.hidden_pos
  rcases hs.lt_or_eq with hlt | rfl
  · rw [highEnd, order_pack ho hlt, significand_pack ho hlt]
  · have hlt : f.hidden < 2 * f.hidden := by omega
    rw [pack_two_hidden, highEnd, order_pack (.inr le_rfl) hlt, significand_pack (.inr le_rfl) hlt]
    calc (4 * (2 * f.hidden) + 2) * 2 ^ o ≤ (4 * f.hidden + 2) * 2 * 2 ^ o :=
          Nat.mul_le_mul_right _ (by omega)
      _ = (4 * f.hidden + 2) * 2 ^ (o + 1) := by rw [Nat.pow_succ', Nat.mul_assoc]

/-- The lower end, also where the significand is about to overflow. At the smallest significand of
an order it is nearer. -/
theorem lowEnd_pack (ho : o = 0 ∨ f.hidden ≤ s) (hs : s ≤ 2 * f.hidden) :
    f.lowEnd (f.pack o s) = (4 * s - 2) * 2 ^ o ∨
      (s = f.hidden ∧ 0 < o ∧ f.lowEnd (f.pack o s) < 4 * s * 2 ^ o) := by
  have hpos := f.hidden_pos
  rcases hs.lt_or_eq with hlt | rfl
  · by_cases hnarrow : s = f.hidden ∧ 0 < o
    · refine .inr ⟨hnarrow.1, hnarrow.2, ?_⟩
      have hends : f.IsNarrow (f.pack o s) := by
        rw [IsNarrow, order_pack ho hlt, significand_pack ho hlt]
        exact hnarrow
      rw [lowEnd, if_pos hends, order_pack ho hlt, significand_pack ho hlt]
      exact Nat.mul_lt_mul_of_pos_right (by omega) (Nat.two_pow_pos o)
    · refine .inl ?_
      rw [lowEnd, order_pack ho hlt, significand_pack ho hlt, if_neg]
      rw [IsNarrow, order_pack ho hlt, significand_pack ho hlt]
      exact hnarrow
  · have hlt : f.hidden < 2 * f.hidden := by omega
    have hnarrow : f.IsNarrow (f.pack (o + 1) f.hidden) :=
      ⟨significand_pack (.inr le_rfl) hlt, by rw [order_pack (.inr le_rfl) hlt]; omega⟩
    refine .inl ?_
    rw [pack_two_hidden, lowEnd, if_pos hnarrow, order_pack (.inr le_rfl) hlt,
      significand_pack (.inr le_rfl) hlt, Nat.pow_succ', ← Nat.mul_assoc]
    congr 1
    omega

theorem pack_mod_two (hf : 0 < f.fractionBits) : f.pack o s % 2 = s % 2 := by
  obtain ⟨k, hk⟩ : 2 ∣ o * f.hidden := Dvd.dvd.mul_left (dvd_pow_self 2 (by omega)) _
  rw [pack, hk]
  omega

/-! ### The nearest magnitude -/

/-- Rounding a ratio, in natural numbers. -/
theorem roundsTo_div_iff (hden : 0 < den) :
    f.RoundsTo m (num / den) ↔
      if m % 2 = 0 then
        f.lowEnd m * den ≤ 4 * (num * 2 ^ f.scale) ∧ 4 * (num * 2 ^ f.scale) ≤ f.highEnd m * den
      else
        f.lowEnd m * den < 4 * (num * 2 ^ f.scale) ∧
          4 * (num * 2 ^ f.scale) < f.highEnd m * den := by
  have hden' : (0 : ℚ) < den := by exact_mod_cast hden
  have hscale : (num / den : ℚ) * 2 ^ (f.scale + 2) = (4 * (num * 2 ^ f.scale) : Nat) / den := by
    push_cast
    ring
  rw [RoundsTo, hscale, le_div_iff₀ hden', div_le_iff₀ hden', lt_div_iff₀ hden', div_lt_iff₀ hden']
  norm_cast

/-- The order that rounding takes leaves a significand of the full length. -/
theorem order_spec (f : Format) {scaled : Nat} (hden : 0 < den)
    (ho : o = (scaled / den).log2 - f.fractionBits) :
    scaled < 2 * f.hidden * (den * 2 ^ o) ∧ (0 < o → f.hidden * (den * 2 ^ o) ≤ scaled) := by
  have hdiv := Nat.div_mul_le_self scaled den
  have hmod := Nat.lt_div_mul_add (a := scaled) hden
  generalize hq : scaled / den = q at *
  constructor
  · have hlt : q < 2 ^ (f.fractionBits + 1 + o) :=
      Nat.lt_log2_self.trans_le (Nat.pow_le_pow_right (by omega) (by omega))
    calc scaled < (q + 1) * den := by rw [Nat.succ_mul]; exact hmod
      _ ≤ 2 ^ (f.fractionBits + 1 + o) * den := Nat.mul_le_mul_right _ hlt
      _ = 2 * f.hidden * (den * 2 ^ o) := by rw [hidden, Nat.pow_eq]; ring
  · intro hpos
    have hne : q ≠ 0 := by
      rintro rfl
      rw [Nat.log2_zero] at ho
      omega
    have hlog : f.fractionBits + o = q.log2 := by omega
    calc f.hidden * (den * 2 ^ o) = 2 ^ (f.fractionBits + o) * den := by
          rw [hidden, Nat.pow_eq]
          ring
      _ ≤ q * den := Nat.mul_le_mul_right _ (hlog ▸ Nat.log2_self_le hne)
      _ ≤ scaled := hdiv

/-- **The nearest magnitude is computed**, and infinity stands for all from infinity on. -/
theorem nearest_spec (hf : 0 < f.fractionBits) (num : Nat) (hden : 0 < den) :
    ∃ m, f.RoundsTo m (num / den) ∧ f.nearest num den = min f.infinity m := by
  generalize hscaled : num * 2 ^ f.scale = scaled
  generalize ho : (scaled / den).log2 - f.fractionBits = o
  have hunit : 0 < den * 2 ^ o := Nat.mul_pos hden (Nat.two_pow_pos o)
  obtain ⟨hhigh, hlow⟩ := f.order_spec hden ho.symm
  generalize hs : roundDiv scaled (den * 2 ^ o) = s
  obtain ⟨hbelow, habove, hstrict⟩ := hs ▸ roundDiv_spec scaled hunit
  have hle : s ≤ 2 * f.hidden := by
    by_contra! hgt
    have hmul := Nat.mul_le_mul_right (den * 2 ^ o) hgt
    rw [Nat.succ_mul] at hmul
    omega
  have hfull : o = 0 ∨ f.hidden ≤ s := by
    refine o.eq_zero_or_pos.imp_right fun hpos => ?_
    by_contra! hlt
    have hmul := Nat.mul_le_mul_right (den * 2 ^ o) hlt
    rw [Nat.succ_mul] at hmul
    have := hlow hpos
    omega
  refine ⟨f.pack o s, (roundsTo_div_iff hden).mpr ?_, ?_⟩
  · have hupper : 4 * (s * (den * 2 ^ o)) + 2 * (den * 2 ^ o) ≤ f.highEnd (f.pack o s) * den := by
      calc 4 * (s * (den * 2 ^ o)) + 2 * (den * 2 ^ o) = (4 * s + 2) * 2 ^ o * den := by ring
        _ ≤ f.highEnd (f.pack o s) * den := Nat.mul_le_mul_right _ (le_highEnd_pack hfull hle)
    have hlower : f.lowEnd (f.pack o s) * den = 4 * (s * (den * 2 ^ o)) - 2 * (den * 2 ^ o) ∨
        f.lowEnd (f.pack o s) * den < 4 * scaled := by
      rcases lowEnd_pack hfull hle with hend | ⟨rfl, hpos, hend⟩
      · refine .inl ?_
        rw [hend, Nat.sub_mul, Nat.sub_mul]
        congr 1 <;> ring
      · refine .inr ?_
        calc f.lowEnd (f.pack o f.hidden) * den < 4 * f.hidden * 2 ^ o * den :=
              Nat.mul_lt_mul_of_pos_right hend hden
          _ = 4 * (f.hidden * (den * 2 ^ o)) := by ring
          _ ≤ 4 * scaled := Nat.mul_le_mul_left _ (hlow hpos)
    rw [hscaled, pack_mod_two hf]
    split
    case isTrue => omega
    case isFalse hodd =>
      have hpos : den * 2 ^ o ≤ s * (den * 2 ^ o) := Nat.le_mul_of_pos_left _ (by omega)
      omega
  · subst hs ho hscaled
    rfl

/-! ### Order -/

theorem lowEnd_le_lowEnd (f : Format) (h : m ≤ n) : f.lowEnd m ≤ f.lowEnd n := by
  rcases h.lt_or_eq with hlt | rfl
  · exact (f.lowEnd_lt_highEnd m).le.trans (f.highEnd_le_lowEnd hlt)
  · exact le_rfl

/-- **Rounding is monotone.** -/
theorem RoundsTo.le_of_le (hm : f.RoundsTo m x) (hn : f.RoundsTo n y) (h : x ≤ y) : m ≤ n := by
  by_contra! hlt
  have hends : (f.highEnd n : ℚ) ≤ f.lowEnd m := by exact_mod_cast f.highEnd_le_lowEnd hlt
  have hscale : x * 2 ^ (f.scale + 2) ≤ y * 2 ^ (f.scale + 2) := by gcongr
  have hle : y * 2 ^ (f.scale + 2) ≤ x * 2 ^ (f.scale + 2) :=
    hn.between.2.trans (hends.trans hm.between.1)
  have heq : x = y := mul_right_cancel₀ (by positivity) (le_antisymm hscale hle)
  subst heq
  exact hlt.ne' (hm.unique hn)

theorem value_nonneg (f : Format) (m : Nat) : 0 ≤ f.value m := by
  rw [value]
  positivity

/-- A value of the format is kept. -/
theorem roundsTo_value (f : Format) (m : Nat) : f.RoundsTo m (f.value m) := by
  have hmono := f.value_strictMono
  rw [roundsTo_iff_midpoints (f.value_nonneg m)]
  refine ⟨.inl ?_, fun k hk => .inl ?_⟩
  · linarith [hmono m.lt_succ_self]
  · linarith [hmono (show k < m by omega)]

/-- No value of the format stands between a number and what it rounds to. -/
theorem RoundsTo.value_le (h : f.RoundsTo m x) (hx : x ≤ f.value n) : f.value m ≤ f.value n :=
  f.value_strictMono.monotone (h.le_of_le (f.roundsTo_value n) hx)

theorem RoundsTo.le_value (h : f.RoundsTo m x) (hx : f.value n ≤ x) : f.value n ≤ f.value m :=
  f.value_strictMono.monotone ((f.roundsTo_value n).le_of_le h hx)

/-- The lower end of an even magnitude is where the numbers begin that do not round below it. -/
theorem RoundsTo.lt_iff (h : f.RoundsTo m x) (hn : n % 2 = 0) :
    m < n ↔ x * 2 ^ (f.scale + 2) < f.lowEnd n := by
  constructor
  · intro hlt
    have hends : (f.highEnd m : ℚ) ≤ f.lowEnd n := by exact_mod_cast f.highEnd_le_lowEnd hlt
    refine (h.between.2.trans hends).lt_of_ne fun heq => hlt.ne (h.unique ?_)
    have hhigh : (f.lowEnd n : ℚ) ≤ f.highEnd n := by exact_mod_cast (f.lowEnd_lt_highEnd n).le
    rw [RoundsTo, if_pos hn]
    exact ⟨heq.ge, heq.le.trans hhigh⟩
  · intro hlt
    by_contra! hle
    have hends : (f.lowEnd n : ℚ) ≤ f.lowEnd m := by exact_mod_cast f.lowEnd_le_lowEnd hle
    exact absurd (hends.trans h.between.1) (not_le.mpr hlt)

/-! ### Integers and values of other formats -/

theorem ofInt_spec (hf : 0 < f.fractionBits) (i : Int) :
    ∃ m, f.RoundsTo m i.natAbs ∧ f.ofInt i = f.signed (i < 0) (min f.infinity m) := by
  obtain ⟨m, hm, hnearest⟩ := nearest_spec hf i.natAbs Nat.one_pos
  rw [Nat.cast_one, div_one] at hm
  exact ⟨m, hm, by rw [ofInt, hnearest]⟩

theorem ofBinary_spec (hf : 0 < f.fractionBits) (negative : Bool) (s : Nat) (e : Int) :
    ∃ m, f.RoundsTo m (s * 2 ^ e) ∧
      f.ofBinary negative s e = f.signed negative (min f.infinity m) := by
  unfold ofBinary
  split
  case isTrue hpos =>
    obtain ⟨k, rfl⟩ := Int.eq_ofNat_of_zero_le hpos
    rw [Int.toNat_natCast]
    obtain ⟨m, hm, hnearest⟩ := nearest_spec hf (s * 2 ^ k) Nat.one_pos
    refine ⟨m, ?_, congrArg _ hnearest⟩
    rw [Nat.cast_one, div_one] at hm
    exact_mod_cast hm
  case isFalse hneg =>
    obtain ⟨k, rfl⟩ : ∃ k : Nat, e = -(k : Int) := ⟨(-e).toNat, by omega⟩
    rw [neg_neg, Int.toNat_natCast]
    obtain ⟨m, hm, hnearest⟩ := nearest_spec hf s (Nat.two_pow_pos k)
    refine ⟨m, ?_, congrArg _ hnearest⟩
    rw [zpow_neg, zpow_natCast, ← div_eq_mul_inv]
    exact_mod_cast hm

/-- A value of one format is converted to the nearest one of another. -/
theorem convert_spec (hg : 0 < g.fractionBits) (negative : Bool) (hm : m < f.infinity) :
    ∃ n, g.RoundsTo n (f.value m) ∧
      f.convert g (f.signed negative m) = g.signed negative (min g.infinity n) := by
  rw [convert, decode_signed negative hm]
  exact ofBinary_spec hg negative _ _

end Format

end QueryTree.Number
