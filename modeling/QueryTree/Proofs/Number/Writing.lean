import QueryTree.Proofs.Number.Shortest
import QueryTree.Proofs.Text.Front

/-!
# What the texts of numbers tell

The text of a number in a query determines its bit pattern, apart from the patterns that are no
number, which share one text (`Layout.write_query_eq_iff`). The digits of the text are read as a
number, and only one magnitude is nearest to it.
-/

namespace QueryTree.Number

open QueryTree.Text

/-! ### Values of texts -/

namespace Decimal

/-- Powers of ten with an integer and a natural exponent. -/
theorem ten_zpow_mul_pow {a : Int} {b e : Nat} (h : a + b = e) :
    (10 : ℚ) ^ a * 10 ^ b = 10 ^ e := by
  rw [← zpow_natCast, ← zpow_natCast, ← zpow_add₀ (by norm_num), h]

/-- The digits around the point stand for the decimal, the point moved behind them. -/
theorem decimalValue_fractional (d : Decimal) :
    (decimalValue (d.whole ++ d.fraction) : ℚ) = d.value * 10 ^ d.fraction.length := by
  obtain ⟨j, k, hzeros, hpoint⟩ := d.exists_zeros
  have hdigits : decimalValue (List.replicate j '0' ++ d.digits ++ List.replicate k '0') =
      decimalValue d.digits * 10 ^ k := by
    rw [decimalValue_append, decimalValue_append, decimalValue_zeros, decimalValue_zeros,
      List.length_replicate, Nat.zero_mul, Nat.zero_add, Nat.add_zero]
  rw [hzeros, hdigits, value, mul_assoc, ten_zpow_mul_pow hpoint]
  push_cast
  rfl

/-- Decimals with the same text stand for the same number. -/
theorem value_eq_of_fractional {d e : Decimal} (hd : d.IsDecimal) (he : e.IsDecimal)
    (h : d.fractional = e.fractional) : d.value = e.value := by
  have hpoint : ∀ {d : Decimal}, d.IsDecimal → '.' ∉ d.whole := fun hd hmem =>
    absurd (isDigit_of_mem_whole hd hmem) (by decide)
  rw [fractional_eq, fractional_eq] at h
  obtain ⟨hwhole, hfraction⟩ := append_cons_inj (hpoint hd) (hpoint he) h
  have hvalue := d.decimalValue_fractional
  rw [hwhole, hfraction, e.decimalValue_fractional] at hvalue
  exact (mul_right_cancel₀ (by positivity) hvalue).symm

end Decimal

/-! ### Bit patterns -/

namespace Format

/-- A bit pattern with all patterns that are no number made one. -/
def merged (f : Format) (bits : Nat) : Option Nat :=
  if f.infinity < bits % f.signBit then none else some bits

variable {f : Format} {a b : Nat}

/-- What a finite value was read from. -/
theorem exists_of_decode_finite {negative : Bool} {significand : Nat} {exponent : Int}
    (h : f.decode a = .finite negative significand exponent) :
    ∃ m, f.significand m = significand ∧ (f.order m : Int) - f.scale = exponent := by
  unfold decode at h
  dsimp only at h
  split at h
  · cases h
  · split at h
    · cases h
    · cases h
      exact ⟨_, rfl, rfl⟩

theorem decode_eq_nan_iff : f.decode a = .nan ↔ f.infinity < a % f.signBit := by
  unfold decode
  dsimp only
  split
  case isTrue h => exact iff_of_true rfl h
  case isFalse h =>
    refine iff_of_false ?_ h
    split <;> intro hnan <;> cases hnan

/-- A pattern is its sign and its magnitude. -/
theorem eq_of_sign_of_magnitude (ha : a < 2 * f.signBit) (hb : b < 2 * f.signBit)
    (hsign : (a / f.signBit % 2 == 1) = (b / f.signBit % 2 == 1))
    (hmagnitude : a % f.signBit = b % f.signBit) : a = b := by
  have hpos : 0 < f.signBit := Nat.two_pow_pos _
  have hqa : a / f.signBit < 2 := (Nat.div_lt_iff_lt_mul hpos).mpr ha
  have hqb : b / f.signBit < 2 := (Nat.div_lt_iff_lt_mul hpos).mpr hb
  have hquot : a / f.signBit = b / f.signBit := by
    rw [Bool.eq_iff_iff, beq_iff_eq, beq_iff_eq] at hsign
    generalize a / f.signBit = p at hsign hqa ⊢
    generalize b / f.signBit = q at hsign hqb ⊢
    omega
  rw [← Nat.div_add_mod a f.signBit, hquot, hmagnitude, Nat.div_add_mod]

/-- A number is read from one pattern only; zero has a sign. -/
theorem decode_inj (ha : a < 2 * f.signBit) (hb : b < 2 * f.signBit)
    (hnumber : ¬ f.infinity < a % f.signBit) (h : f.decode a = f.decode b) : a = b := by
  have hnumber' : ¬ f.infinity < b % f.signBit := by
    rwa [← decode_eq_nan_iff, ← h, decode_eq_nan_iff]
  unfold decode at h
  dsimp only at h
  rw [if_neg hnumber, if_neg hnumber'] at h
  split at h <;> split at h
  case isTrue.isTrue hinf hinf' =>
    exact eq_of_sign_of_magnitude ha hb (Value.infinite.inj h) (hinf.trans hinf'.symm)
  case isTrue.isFalse => cases h
  case isFalse.isTrue => cases h
  case isFalse.isFalse =>
    obtain ⟨hsign, hsignificand, hexponent⟩ := Value.finite.inj h
    have horder : f.order (a % f.signBit) = f.order (b % f.signBit) := by omega
    apply eq_of_sign_of_magnitude ha hb hsign
    rw [← f.order_mul_hidden_add (a % f.signBit), horder, hsignificand, f.order_mul_hidden_add]

/-- The patterns that are merged are those that are read as the same. -/
theorem merged_eq_iff (ha : a < 2 * f.signBit) (hb : b < 2 * f.signBit) :
    f.merged a = f.merged b ↔ f.decode a = f.decode b := by
  unfold merged
  by_cases hnan : f.infinity < a % f.signBit
  · rw [if_pos hnan, decode_eq_nan_iff.mpr hnan, eq_comm (a := Value.nan), decode_eq_nan_iff]
    split
    case isTrue h => exact iff_of_true rfl h
    case isFalse h => exact iff_of_false (fun hnone => by cases hnone) h
  · rw [if_neg hnan]
    constructor
    · intro h
      split at h
      · cases h
      · rw [Option.some.inj h]
    · intro h
      obtain rfl := decode_inj ha hb hnan h
      rw [if_neg hnan]

end Format

/-! ### Texts -/

namespace Layout

variable {f : Format} {a b : Nat}

/-- The text of a finite value has none of the letters of the other texts, and no sign apart from
the one before it. -/
theorem notMem_fractional_chosen (significand : Nat) (exponent : Int) {c : Char}
    (hc : c ∈ ['N', 'I', '-']) : c ∉ (chosen f significand exponent).fractional := by
  have huses := Decimal.uses_fractional (isDecimal_chosen f significand exponent)
  rcases List.mem_cons.mp hc with rfl | hc
  · exact huses.notMem rfl (by decide)
  · rcases List.mem_cons.mp hc with rfl | hc
    · exact huses.notMem rfl (by decide)
    · obtain rfl := List.mem_singleton.mp hc
      exact huses.notMem rfl (by decide)

/-- A sign can be told from what follows it. -/
theorem sign_append_inj {m n : Bool} {cs ds : List Char} (hcs : '-' ∉ cs) (hds : '-' ∉ ds)
    (h : (if m then ['-'] else []) ++ cs = (if n then ['-'] else []) ++ ds) : m = n ∧ cs = ds := by
  cases m <;> cases n
  · exact ⟨rfl, h⟩
  · exact absurd (by rw [show cs = '-' :: ds from h]; exact List.mem_cons_self ..) hcs
  · exact absurd (by rw [show ds = '-' :: cs from h.symm]; exact List.mem_cons_self ..) hds
  · exact ⟨rfl, (List.cons.inj h).2⟩

/-- The text of a number tells what its pattern stands for. -/
theorem decode_eq_of_write_query (hf : f.IsShort) (h : query.write f a = query.write f b) :
    f.decode a = f.decode b := by
  rw [write_query, write_query] at h
  have hmark : ∀ {negative : Bool} {significand : Nat} {exponent : Int} {c : Char} {cs : List Char},
      c ∈ ['N', 'I'] → c ∈ cs →
      (if negative then ['-'] else []) ++ (chosen f significand exponent).fractional ≠ cs := by
    rintro negative significand exponent c cs hc hmem rfl
    rcases List.mem_append.mp hmem with hmem | hmem
    · cases negative
      · cases hmem
      · obtain rfl := List.mem_singleton.mp hmem
        revert hc
        decide
    · exact notMem_fractional_chosen _ _ (List.mem_append_left ['-'] hc) hmem
  cases hda : f.decode a with
  | nan =>
    cases hdb : f.decode b with
    | nan => rfl
    | infinite n =>
      rw [hda, hdb] at h
      cases n <;> simp [valueChars] at h
    | finite n s e =>
      rw [hda, hdb] at h
      exact absurd h.symm (hmark (c := 'N') (by decide) (by simp [valueChars]))
  | infinite m =>
    cases hdb : f.decode b with
    | nan =>
      rw [hda, hdb] at h
      cases m <;> simp [valueChars] at h
    | infinite n =>
      rw [hda, hdb] at h
      rw [(sign_append_inj (by decide) (by decide) h).1]
    | finite n s e =>
      rw [hda, hdb] at h
      exact absurd h.symm (hmark (c := 'I') (by decide) (by simp [valueChars]))
  | finite m s e =>
    cases hdb : f.decode b with
    | nan =>
      rw [hda, hdb] at h
      exact absurd h (hmark (c := 'N') (by decide) (by simp [valueChars]))
    | infinite n =>
      rw [hda, hdb] at h
      exact absurd h (hmark (c := 'I') (by decide) (by simp [valueChars]))
    | finite n s' e' =>
      rw [hda, hdb] at h
      have hsign : ∀ s e, '-' ∉ (chosen f s e).fractional := fun s e =>
        notMem_fractional_chosen s e (by decide)
      obtain ⟨rfl, htext⟩ := sign_append_inj (hsign _ _) (hsign _ _) h
      have hvalue := Decimal.value_eq_of_fractional (isDecimal_chosen f s e)
        (isDecimal_chosen f s' e') htext
      obtain ⟨m, rfl, rfl⟩ := Format.exists_of_decode_finite hda
      obtain ⟨n, rfl, rfl⟩ := Format.exists_of_decode_finite hdb
      have hround := roundsTo_value_chosen hf m
      rw [hvalue] at hround
      rw [hround.unique (roundsTo_value_chosen hf n)]

/-- **The text of a number tells its pattern**, apart from the patterns that are no number. -/
theorem write_query_eq_iff (hf : f.IsShort) (ha : a < 2 * f.signBit) (hb : b < 2 * f.signBit) :
    query.write f a = query.write f b ↔ f.merged a = f.merged b := by
  rw [Format.merged_eq_iff ha hb]
  constructor
  · exact decode_eq_of_write_query hf
  · intro h
    rw [write_query, write_query, h]

end Layout

end QueryTree.Number
