import Mathlib.Data.List.DropRight
import QueryTree.Proofs.Number.Fewest
import QueryTree.Proofs.Number.Nearest

/-!
# Numerals

The text of a finite number in a query is a `Numeral`: an optional hyphen, digits, a point and
digits, with no zero too many on either side. It has the sign of the pattern, the magnitude of the
pattern is nearest to its number, and of the decimals of which that holds none has fewer significant
digits and none with as few is nearer to the value (`Layout.exists_numeral`).
-/

namespace QueryTree.Number

open QueryTree.Text

/-! ### Significant digits -/

/-- The digits of a list without the zeros before and after the others. -/
def significant (cs : List Char) : List Char := dropZeros (cs.dropWhile (· == '0'))

theorem dropZeros_eq_rdropWhile (cs : List Char) : dropZeros cs = cs.rdropWhile (· == '0') := rfl

theorem dropZeros_concat (cs : List Char) {c : Char} (hc : c ≠ '0') :
    dropZeros (cs ++ [c]) = cs ++ [c] := by
  rw [dropZeros_eq_rdropWhile, List.rdropWhile_concat_neg]
  simpa using hc

theorem dropZeros_append_zeros (cs : List Char) (k : Nat) :
    dropZeros (cs ++ List.replicate k '0') = dropZeros cs := by
  induction k with
  | zero => rw [List.replicate_zero, List.append_nil]
  | succ k ih =>
    rw [List.replicate_succ', ← List.append_assoc, dropZeros_eq_rdropWhile,
      List.rdropWhile_concat_pos (· == '0') _ _ rfl, ← dropZeros_eq_rdropWhile, ih]

/-- What is left without the zeros at the end does not end in a zero. -/
theorem exists_last_dropZeros {cs : List Char} (h : dropZeros cs ≠ []) :
    ∃ ds d, dropZeros cs = ds ++ [d] ∧ d ≠ '0' := by
  have hlast : ¬ ((dropZeros cs).getLast h == '0') = true :=
    List.rdropWhile_last_not (· == '0') cs h
  exact ⟨_, _, (List.dropLast_append_getLast h).symm, by simpa using hlast⟩

/-! ### The digits of a number -/

theorem decimal_ten_pow (k : Nat) : decimal (10 ^ k) = '1' :: List.replicate k '0' := by
  induction k with
  | zero => rfl
  | succ k ih =>
    have happend := Nat.toDigits_append_toDigits (b := 10) (n := 10 ^ k) (d := 0) (by decide)
      (by positivity) (by decide)
    rw [← decimal, ih, Nat.toDigits_zero] at happend
    rw [Nat.pow_succ', decimal, ← Nat.add_zero (10 * 10 ^ k), ← happend, List.replicate_succ']
    rfl

/-- Up to the power of ten after the numbers of `k` digits there are at most `k` digits before
zeros. -/
theorem length_dropZeros_decimal_le {n k : Nat} (hk : 0 < k) (hn : n ≤ 10 ^ k) :
    (dropZeros (decimal n)).length ≤ k := by
  rcases hn.lt_or_eq with hlt | rfl
  · exact (List.rdropWhile_prefix _ _).length_le.trans ((length_decimal_le_iff hk).mpr hlt)
  · have hone : dropZeros ('1' :: List.replicate k '0') = ['1'] := dropZeros_append_zeros ['1'] k
    rw [decimal_ten_pow, hone]
    exact hk

/-! ### Decimals without needless zeros -/

namespace Decimal

theorem value_nonneg (d : Decimal) : 0 ≤ d.value := by
  unfold value
  positivity

/-- The digits neither begin nor end with a zero. -/
structure IsNormal (d : Decimal) : Prop where
  isDecimal : d.IsDecimal
  head : ∃ c cs, d.digits = c :: cs ∧ c ≠ '0'
  last : ∃ cs c, d.digits = cs ++ [c] ∧ c ≠ '0'

theorem isNormal_ofMultiple {c : Nat} (hc : 0 < c) (t : Int) : (ofMultiple c t).IsNormal := by
  obtain ⟨b, cs, hcs, hb⟩ := exists_head_decimal hc
  obtain ⟨k, hk⟩ := dropZeros_append (decimal c)
  have hne : dropZeros (decimal c) ≠ [] := by
    intro hnil
    rw [hnil, List.nil_append] at hk
    have hzero := decimalValue_decimal c
    rw [hk, decimalValue_zeros] at hzero
    omega
  refine ⟨isDecimal_ofMultiple c t, ?_, exists_last_dropZeros hne⟩
  obtain ⟨d, ds, hds⟩ := List.exists_cons_of_ne_nil hne
  rw [hds, hcs, List.cons_append] at hk
  exact ⟨d, ds, hds, (List.cons.inj hk).1 ▸ hb⟩

variable {d : Decimal}

theorem IsNormal.significant_eq (h : d.IsNormal) :
    significant (d.whole ++ d.fraction) = d.digits := by
  obtain ⟨c, cs, hcs, hc⟩ := h.head
  obtain ⟨ds, e, hds, he⟩ := h.last
  obtain ⟨j, k, hzeros, -⟩ := d.exists_zeros
  have hdrop : (List.replicate j '0' ++ (d.digits ++ List.replicate k '0')).dropWhile (· == '0') =
      d.digits ++ List.replicate k '0' := by
    rw [List.dropWhile_append_of_pos (by simp), hcs, List.cons_append,
      List.dropWhile_cons_of_neg (by simpa using hc)]
  rw [hzeros, significant, List.append_assoc, hdrop, dropZeros_append_zeros, hds,
    dropZeros_concat ds he]

/-- No zero stands before the digits in front of the point, if they are not one zero. -/
theorem IsNormal.whole_plain (h : d.IsNormal) :
    d.whole = ['0'] ∨ ∃ c cs, d.whole = c :: cs ∧ c ≠ '0' := by
  obtain ⟨c, cs, hcs, hc⟩ := h.head
  unfold whole
  split
  case isTrue => exact .inl rfl
  case isFalse hpos =>
    obtain ⟨k, hk⟩ : ∃ k, d.point.toNat = k + 1 := ⟨d.point.toNat - 1, by omega⟩
    rw [hcs, hk, List.take_succ_cons, List.cons_append]
    exact .inr ⟨c, _, rfl, hc⟩

/-- No zero stands after the digits behind the point, if they are not one zero. -/
theorem IsNormal.fraction_plain (h : d.IsNormal) :
    d.fraction = ['0'] ∨ ∃ cs c, d.fraction = cs ++ [c] ∧ c ≠ '0' := by
  obtain ⟨cs, c, hcs, hc⟩ := h.last
  have hlen := congrArg List.length hcs
  rw [List.length_append, List.length_singleton] at hlen
  unfold fraction
  split
  case isTrue => exact .inr ⟨_, c, by rw [hcs, List.append_assoc], hc⟩
  case isFalse =>
    split
    case isTrue => exact .inl rfl
    case isFalse =>
      rw [hcs, List.drop_append_of_le_length (by omega)]
      exact .inr ⟨_, c, rfl, hc⟩

end Decimal

/-! ### Numerals -/

/-- An optional hyphen, digits, a point and digits. There are digits on both sides of the point, and
apart from a single one no zero stands at either end. -/
structure Numeral where
  negative : Bool
  whole : List Char
  fraction : List Char
  isDigit : ∀ c ∈ whole ++ fraction, c.isDigit = true
  whole_plain : whole = ['0'] ∨ ∃ c cs, whole = c :: cs ∧ c ≠ '0'
  fraction_plain : fraction = ['0'] ∨ ∃ cs c, fraction = cs ++ [c] ∧ c ≠ '0'

namespace Numeral

/-- The characters of a numeral. -/
def chars (n : Numeral) : List Char :=
  (if n.negative then ['-'] else []) ++ n.whole ++ '.' :: n.fraction

/-- The number that a numeral stands for, without its sign. -/
def magnitude (n : Numeral) : ℚ := decimalValue (n.whole ++ n.fraction) / 10 ^ n.fraction.length

/-- The significant digits of a numeral. -/
def digits (n : Numeral) : List Char := significant (n.whole ++ n.fraction)

/-- A numeral denotes a bit pattern as shortly as possible: it is rounded to the pattern, and of the
decimals that are rounded to its magnitude none has fewer digits and none with as few is nearer to
the value. -/
structure Denotes (f : Format) (bits : Nat) (n : Numeral) : Prop where
  sign : n.negative = true ↔ f.signBit ≤ bits
  pattern : f.signed n.negative (bits % f.signBit) = bits
  nearest : f.IsNearest (bits % f.signBit) n.magnitude
  isBest : IsBest (f.IsNearest (bits % f.signBit)) (f.value (bits % f.signBit)) n.digits.length
    n.magnitude

/-- The numeral of zero. -/
def zero (negative : Bool) : Numeral where
  negative := negative
  whole := ['0']
  fraction := ['0']
  isDigit c hc := by
    obtain rfl : c = '0' := by simpa using hc
    rfl
  whole_plain := .inl rfl
  fraction_plain := .inl rfl

/-- The numeral of a decimal. -/
def ofDecimal (negative : Bool) (d : Decimal) (h : d.IsNormal) : Numeral where
  negative := negative
  whole := d.whole
  fraction := d.fraction
  isDigit _ hc := (List.mem_append.mp hc).elim (Decimal.isDigit_of_mem_whole h.isDecimal)
    (Decimal.isDigit_of_mem_fraction h.isDecimal)
  whole_plain := h.whole_plain
  fraction_plain := h.fraction_plain

variable {negative : Bool}

theorem chars_ofDecimal {d : Decimal} (h : d.IsNormal) :
    (ofDecimal negative d h).chars = (if negative then ['-'] else []) ++ d.fractional := by
  rw [chars, Decimal.fractional_eq, List.append_assoc]
  rfl

theorem magnitude_ofDecimal {d : Decimal} (h : d.IsNormal) :
    (ofDecimal negative d h).magnitude = d.value := by
  have hvalue := d.decimalValue_fractional
  rw [magnitude, div_eq_iff (by positivity)]
  exact hvalue

theorem digits_ofDecimal {d : Decimal} (h : d.IsNormal) :
    (ofDecimal negative d h).digits = d.digits :=
  h.significant_eq

end Numeral

/-! ### The decimal of a value -/

variable {f : Format} {m : Nat}

namespace Format

theorem value_ofMagnitude (f : Format) (m : Nat) :
    ((Interval.ofMagnitude f m).value : ℚ) / (Interval.ofMagnitude f m).den = f.value m := by
  have hscale : (0 : ℚ) < 2 ^ (f.scale + 2) := by positivity
  rw [← mul_left_inj' hscale.ne', Interval.value_mul_scale, value_eq_units, units]
  push_cast
  rw [pow_add, ← mul_assoc, div_mul_cancel₀ _ (by positivity)]
  ring

/-- The shortest decimal is the best one, and has no needless zeros. -/
theorem shortest_isBest (hf : f.IsShort) (hsig : f.significand m ≠ 0) :
    (f.shortest (f.significand m) ((f.order m : Int) - f.scale)).IsNormal ∧
      IsBest (f.IsNearest m) (f.value m)
        (f.shortest (f.significand m) ((f.order m : Int) - f.scale)).digits.length
        (f.shortest (f.significand m) ((f.order m : Int) - f.scale)).value := by
  obtain ⟨n, c, t, hfirst, hn, hc, hle, hbest⟩ :=
    Interval.firstHit_isBest (Interval.den_ofMagnitude_pos f m) (Interval.low_pos hsig)
      (Interval.low_lt_value hsig) (Interval.gap_ofMagnitude hf m)
  have hdecimal : f.shortest (f.significand m) ((f.order m : Int) - f.scale) =
      Decimal.ofMultiple c t := by
    rw [Interval.ofMagnitude] at hfirst
    simp only [shortest, hfirst]
  rw [hdecimal]
  refine ⟨Decimal.isNormal_ofMultiple hc t, ?_⟩
  rw [Decimal.value_ofMultiple, ← value_ofMagnitude]
  refine (hbest.of_iff fun y hy => ?_).of_le (length_dropZeros_decimal_le hn hle)
  rw [Interval.contains_ofMagnitude f m hf, isNearest_iff_roundsTo hy]

end Format

/-! ### Texts -/

namespace Numeral

theorem magnitude_zero (negative : Bool) : (zero negative).magnitude = 0 := by
  have hdigits : decimalValue (['0'] ++ ['0']) = 0 := decimalValue_zeros 2
  simp only [magnitude, zero, hdigits, Nat.cast_zero, zero_div]

/-- Zero is written without a significant digit. -/
theorem zero_isBest (P : ℚ → Prop) (negative : Bool) :
    IsBest P 0 (zero negative).digits.length (zero negative).magnitude where
  fewest _ _ _ _ _ := Nat.zero_le _
  nearest c t _ _ := by
    rw [magnitude_zero, sub_zero, abs_zero]
    exact abs_nonneg _

end Numeral

/-- The decimal that is written for a magnitude makes a numeral that denotes it. -/
theorem exists_numeral_of_magnitude (hf : f.IsShort) (m : Nat) (negative : Bool) :
    ∃ n : Numeral, n.negative = negative ∧
      n.chars = (if negative then ['-'] else []) ++
        (Layout.chosen f (f.significand m) ((f.order m : Int) - f.scale)).fractional ∧
      f.IsNearest m n.magnitude ∧
      IsBest (f.IsNearest m) (f.value m) n.digits.length n.magnitude := by
  have hround := roundsTo_value_chosen hf m
  rw [← Format.isNearest_iff_roundsTo (Decimal.value_nonneg _)] at hround
  by_cases hzero : f.significand m = 0
  case pos =>
    have hvalue : f.value m = 0 := by
      rw [Format.value, hzero, Nat.cast_zero, zero_mul]
    refine ⟨Numeral.zero negative, rfl, ?_, ?_, ?_⟩
    · rw [Layout.chosen, if_pos hzero, Numeral.chars, List.append_assoc]
      rfl
    · rwa [Layout.chosen, if_pos hzero, Decimal.value_zero,
        ← Numeral.magnitude_zero negative] at hround
    · rw [hvalue]
      exact Numeral.zero_isBest _ _
  case neg =>
    obtain ⟨hnormal, hbest⟩ := Format.shortest_isBest hf hzero
    rw [Layout.chosen, if_neg hzero] at hround ⊢
    refine ⟨Numeral.ofDecimal negative _ hnormal, rfl, Numeral.chars_ofDecimal hnormal, ?_, ?_⟩
    · rwa [Numeral.magnitude_ofDecimal]
    · rwa [Numeral.magnitude_ofDecimal, Numeral.digits_ofDecimal]

/-- The sign bit of a pattern, as it is read. -/
theorem Format.sign_iff {bits : Nat} (h : bits < 2 * f.signBit) :
    (bits / f.signBit % 2 == 1) = true ↔ f.signBit ≤ bits := by
  have hpos : 0 < f.signBit := Nat.two_pow_pos _
  have hquot : bits / f.signBit < 2 := (Nat.div_lt_iff_lt_mul hpos).mpr h
  have hone := Nat.le_div_iff_mul_le hpos (x := 1) (y := bits)
  rw [Nat.one_mul] at hone
  rw [beq_iff_eq, Nat.mod_eq_of_lt hquot, ← hone]
  omega

/-- **The text of a finite number is a numeral that denotes it as shortly as possible.** -/
theorem Layout.exists_numeral (hf : f.IsShort) {bits : Nat} (hbits : bits < 2 * f.signBit)
    (hfinite : f.IsFinite bits) :
    ∃ n : Numeral, query.write f bits = n.chars ∧ n.Denotes f bits := by
  have hsign := Format.sign_iff hbits
  have hpattern := Format.signed_of_pattern hbits
  obtain ⟨n, hnegative, hchars, hnearest, hbest⟩ :=
    exists_numeral_of_magnitude hf (bits % f.signBit) (bits / f.signBit % 2 == 1)
  rw [← hnegative] at hsign hpattern hchars
  refine ⟨n, ?_, hsign, hpattern, hnearest, hbest⟩
  rw [hchars, write_query]
  conv_lhs => rw [← hpattern, Format.decode_signed n.negative hfinite]
  rfl

end QueryTree.Number
