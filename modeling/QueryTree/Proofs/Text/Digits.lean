import Mathlib.Algebra.Group.Nat.Defs
import QueryTree.Text.Digits

/-!
# Digits and their numbers

What the digits of a number look like, and that they determine it: for natural numbers, with zeros
up to a width, and for integers with their sign.
-/

namespace QueryTree.Text

/-! ### Texts of digits and a few other characters -/

/-- Every character is a digit or one of the others. -/
def Uses (others cs : List Char) : Prop := ∀ c ∈ cs, c.isDigit = true ∨ c ∈ others

variable {others : List Char}

@[simp]
theorem uses_nil : Uses others [] := fun _ h => absurd h List.not_mem_nil

@[simp]
theorem uses_cons (c : Char) (cs : List Char) :
    Uses others (c :: cs) ↔ (c.isDigit = true ∨ c ∈ others) ∧ Uses others cs :=
  List.forall_mem_cons

@[simp]
theorem uses_append (cs ds : List Char) :
    Uses others (cs ++ ds) ↔ Uses others cs ∧ Uses others ds :=
  List.forall_mem_append

theorem uses_of_digits (others : List Char) {cs : List Char} (h : ∀ c ∈ cs, c.isDigit = true) :
    Uses others cs :=
  fun c hc => Or.inl (h c hc)

theorem Uses.mono {cs : List Char} (h : Uses others cs) {more : List Char} (hsub : others ⊆ more) :
    Uses more cs :=
  fun c hc => (h c hc).imp id (hsub ·)

/-- A character that is neither a digit nor one of the others does not occur. -/
theorem Uses.notMem {cs : List Char} (h : Uses others cs) {c : Char} (hd : c.isDigit = false)
    (hc : c ∉ others) : c ∉ cs := by
  intro hmem
  rcases h c hmem with h | h
  · rw [h] at hd
    cases hd
  · exact hc h

/-! ### Natural numbers -/

theorem isDigit_of_mem_decimal {n : Nat} {c : Char} (h : c ∈ decimal n) : c.isDigit = true :=
  Nat.isDigit_of_mem_toDigits (by decide) (by decide) h

theorem decimal_ne_nil (n : Nat) : decimal n ≠ [] := Nat.toDigits_ne_nil

theorem decimal_inj {m n : Nat} (h : decimal m = decimal n) : m = n := by
  rw [← decimalValue_decimal m, h, decimalValue_decimal]

/-- A number has at most `k` digits if it is less than the `k`-th power of ten. -/
theorem length_decimal_le_iff {n k : Nat} (h : 0 < k) : (decimal n).length ≤ k ↔ n < 10 ^ k :=
  Nat.length_toDigits_le_iff (by decide) h

/-- A positive number is not less than the power of ten of its first digit. -/
theorem ten_pow_length_le {n : Nat} (h : 0 < n) : 10 ^ ((decimal n).length - 1) ≤ n := by
  have hlen := List.length_pos_iff.mpr (decimal_ne_nil n)
  by_cases hone : (decimal n).length = 1
  · rw [hone]
    exact h
  · rw [← Nat.not_lt]
    intro hlt
    have := (length_decimal_le_iff (by omega)).mpr hlt
    omega

/-- The number of the digits of one list after those of another. -/
theorem decimalValue_append (cs ds : List Char) :
    decimalValue (cs ++ ds) = decimalValue cs * 10 ^ ds.length + decimalValue ds := by
  rw [decimalValue, decimalValue, decimalValue, Nat.ofDigitChars_append,
    Nat.ofDigitChars_eq_ofDigitChars_zero, Nat.mul_comm]

/-- Zeros alone stand for nothing. -/
@[simp]
theorem decimalValue_zeros (k : Nat) : decimalValue (List.replicate k '0') = 0 := by
  rw [decimalValue, Nat.ofDigitChars_replicate_zero, Nat.mul_zero]

/-- Digits stand for less than the power of ten that their number makes. -/
theorem decimalValue_lt {cs : List Char} (h : ∀ c ∈ cs, c.isDigit = true) :
    decimalValue cs < 10 ^ cs.length := by
  induction cs with
  | nil => decide
  | cons c cs ih =>
    have hc : decimalValue [c] ≤ 9 := by
      have hdigit := h c (List.mem_cons_self ..)
      simp only [Char.isDigit, Bool.and_eq_true, decide_eq_true_eq] at hdigit
      have hnine : c.toNat ≤ 57 := hdigit.2
      have hzero : '0'.toNat = 48 := rfl
      simp [decimalValue, Nat.ofDigitChars_cons]
      omega
    have hcs := ih fun d hd => h d (List.mem_cons_of_mem _ hd)
    have := Nat.mul_le_mul_right (10 ^ cs.length) hc
    rw [← List.singleton_append, decimalValue_append, List.length_append, List.length_singleton,
      Nat.pow_add]
    omega

/-- A positive number does not begin with a zero. -/
theorem exists_head_decimal {n : Nat} (h : 0 < n) : ∃ c cs, decimal n = c :: cs ∧ c ≠ '0' := by
  obtain ⟨c, cs, hcs⟩ := List.exists_cons_of_ne_nil (decimal_ne_nil n)
  refine ⟨c, cs, hcs, ?_⟩
  rintro rfl
  have hvalue : n = decimalValue cs := by
    have hzero : decimalValue ['0'] = 0 := decimalValue_zeros 1
    rw [← decimalValue_decimal n, hcs, ← List.singleton_append, decimalValue_append, hzero,
      Nat.zero_mul, Nat.zero_add]
  have hlt : n < 10 ^ cs.length := by
    rw [hvalue]
    exact decimalValue_lt fun c hc => isDigit_of_mem_decimal (hcs ▸ List.mem_cons_of_mem _ hc)
  have hle := ten_pow_length_le h
  rw [hcs, List.length_cons, Nat.add_sub_cancel] at hle
  omega

/-- No zero stands before the digits of a number. -/
theorem decimal_ne_zero_cons (n : Nat) (c : Char) (cs : List Char) :
    decimal n ≠ '0' :: c :: cs := by
  intro h
  rcases Nat.eq_zero_or_pos n with rfl | hpos
  · have hzero : decimal 0 = ['0'] := rfl
    rw [hzero] at h
    cases h
  · obtain ⟨d, ds, hd, hne⟩ := exists_head_decimal hpos
    rw [hd] at h
    exact hne (List.cons.inj h).1

/-- Digits are read as the number that they stand for. -/
theorem valueAfter?_of_digits {cs : List Char} (h : ∀ c ∈ cs, c.isDigit = true) (acc : Nat) :
    valueAfter? 10 acc cs = some (Nat.ofDigitChars 10 cs acc) := by
  induction cs generalizing acc with
  | nil => rfl
  | cons c cs ih =>
    obtain ⟨hc, hcs⟩ := List.forall_mem_cons.mp h
    have hdigit : digitIn? 10 c = some (c.toNat - 48) := by
      simp only [Char.isDigit, Bool.and_eq_true, decide_eq_true_eq] at hc
      have hrange : 48 ≤ c.toNat ∧ c.toNat ≤ 57 := hc
      rw [digitIn?, digitValue?, if_pos hrange, Option.filter_some, if_pos]
      exact decide_eq_true (by omega)
    rw [valueAfter?, hdigit, Nat.ofDigitChars_cons, Nat.mul_comm 10]
    exact ih hcs _

theorem value?_decimal (n : Nat) : value? 10 (decimal n) = some n := by
  have hne : (decimal n).isEmpty = false := by simpa using decimal_ne_nil n
  rw [value?, hne, valueAfter?_of_digits fun _ => isDigit_of_mem_decimal]
  exact congrArg some (decimalValue_decimal n)

/-! ### Widths -/

theorem isDigit_of_mem_padded {w n : Nat} {c : Char} (h : c ∈ padded w n) : c.isDigit = true := by
  rw [padded, padZeros, List.mem_append] at h
  rcases h with h | h
  · rw [(List.mem_replicate.mp h).2]
    rfl
  · exact isDigit_of_mem_decimal h

@[simp]
theorem uses_padded (others : List Char) (w n : Nat) : Uses others (padded w n) :=
  uses_of_digits others fun _ => isDigit_of_mem_padded

@[simp]
theorem decimalValue_padded (w n : Nat) : decimalValue (padded w n) = n := by
  rw [padded, padZeros, decimalValue_append, decimalValue_zeros, decimalValue_decimal]
  omega

theorem padded_inj {w m n : Nat} (h : padded w m = padded w n) : m = n := by
  rw [← decimalValue_padded w m, h, decimalValue_padded]

/-- A number that fits a width takes exactly that width. -/
theorem length_padded {w n : Nat} (hw : 0 < w) (h : n < 10 ^ w) : (padded w n).length = w := by
  have hlen := (length_decimal_le_iff hw).mpr h
  rw [padded, padZeros, List.length_append, List.length_replicate]
  omega

theorem padded_ne_nil (w n : Nat) : padded w n ≠ [] := by
  rw [padded, padZeros]
  exact List.append_ne_nil_of_right_ne_nil _ (decimal_ne_nil n)

/-! ### Integers -/

theorem uses_integer (n : Int) : Uses ['-'] (integer n) := by
  have hdigits : Uses ['-'] (decimal n.natAbs) := uses_of_digits _ fun _ => isDigit_of_mem_decimal
  unfold integer
  split
  · simpa using hdigits
  · exact hdigits

/-- Only the first character of an integer may be a hyphen. -/
theorem hyphen_notMem_tail_integer (n : Int) : '-' ∉ (integer n).tail := by
  intro h
  rw [integer] at h
  split at h
  · exact absurd (isDigit_of_mem_decimal h) (by decide)
  · exact absurd (isDigit_of_mem_decimal (List.mem_of_mem_tail h)) (by decide)

theorem integer_inj {m n : Int} (h : integer m = integer n) : m = n := by
  have hyphen : ∀ {k l : Nat}, '-' :: decimal k ≠ decimal l := by
    intro k l h
    exact absurd (isDigit_of_mem_decimal (h ▸ List.mem_cons_self ..)) (by decide)
  unfold integer at h
  split at h <;> split at h
  · have := decimal_inj (List.cons.inj h).2
    omega
  · exact absurd h hyphen
  · exact absurd h.symm hyphen
  · have := decimal_inj h
    omega

end QueryTree.Text
