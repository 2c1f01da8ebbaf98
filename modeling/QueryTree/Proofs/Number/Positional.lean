import QueryTree.Number.Layout
import QueryTree.Proofs.Text.Digits

/-!
# Positional texts of numbers

The text of a finite number in a query is an optional hyphen, digits, one point and digits
(`write_query`). `Decimal.whole` and `Decimal.fraction` are the digits before and after the point.
-/

namespace QueryTree.Number

open QueryTree.Text

namespace Decimal

/-- The digits of the decimal are digits. -/
def IsDecimal (d : Decimal) : Prop := ∀ c ∈ d.digits, c.isDigit = true

/-- The digits before the point. -/
def whole (d : Decimal) : List Char :=
  if d.point ≤ 0 then ['0']
  else d.digits.take d.point.toNat ++ List.replicate (d.point.toNat - d.digits.length) '0'

/-- The digits after the point. -/
def fraction (d : Decimal) : List Char :=
  if d.point ≤ 0 then List.replicate (-d.point).toNat '0' ++ d.digits
  else if d.digits.length ≤ d.point then ['0']
  else d.digits.drop d.point.toNat

theorem fractional_eq (d : Decimal) : d.fractional = d.whole ++ '.' :: d.fraction := by
  unfold fractional positional whole fraction
  by_cases h₀ : d.point ≤ 0
  · simp [h₀]
  · by_cases h₁ : (d.digits.length : Int) ≤ d.point
    · have h₂ : ¬ (d.point ≤ 0 ∨ d.point < d.digits.length) := by omega
      rw [if_neg h₂, if_neg h₀, if_pos h₁, if_neg h₀, if_neg h₀, if_pos h₁,
        List.take_of_length_le (by omega)]
    · have h₂ : d.point ≤ 0 ∨ d.point < d.digits.length := by omega
      have h₃ : d.point.toNat - d.digits.length = 0 := by omega
      simp [h₀, h₁, h₃]

theorem isDigit_of_mem_whole {d : Decimal} (hd : d.IsDecimal) {c : Char} (h : c ∈ d.whole) :
    c.isDigit = true := by
  unfold whole at h
  split at h
  · rw [List.mem_singleton.mp h]
    rfl
  · rcases List.mem_append.mp h with h | h
    · exact hd c (List.mem_of_mem_take h)
    · rw [(List.mem_replicate.mp h).2]
      rfl

theorem isDigit_of_mem_fraction {d : Decimal} (hd : d.IsDecimal) {c : Char}
    (h : c ∈ d.fraction) : c.isDigit = true := by
  unfold fraction at h
  split at h
  · rcases List.mem_append.mp h with h | h
    · rw [(List.mem_replicate.mp h).2]
      rfl
    · exact hd c h
  · split at h
    · rw [List.mem_singleton.mp h]
      rfl
    · exact hd c (List.mem_of_mem_drop h)

/-- Only zeros are put around the digits, and those after the digits move the point. -/
theorem exists_zeros (d : Decimal) :
    ∃ j k, d.whole ++ d.fraction = List.replicate j '0' ++ d.digits ++ List.replicate k '0' ∧
      d.point - d.digits.length + d.fraction.length = k := by
  unfold whole fraction
  by_cases hsmall : d.point ≤ 0
  · refine ⟨(-d.point).toNat + 1, 0, ?_, ?_⟩
    · simp [hsmall, List.replicate_succ]
    · rw [if_pos hsmall, List.length_append, List.length_replicate]
      omega
  · by_cases hlarge : (d.digits.length : Int) ≤ d.point
    · refine ⟨0, d.point.toNat - d.digits.length + 1, ?_, ?_⟩
      · rw [if_neg hsmall, if_neg hsmall, if_pos hlarge, List.take_of_length_le (by omega),
          List.append_assoc, ← List.replicate_succ', List.replicate_zero, List.nil_append]
      · rw [if_neg hsmall, if_pos hlarge, List.length_singleton]
        omega
    · refine ⟨0, 0, ?_, ?_⟩
      · have hzeros : d.point.toNat - d.digits.length = 0 := by omega
        simp [hsmall, hlarge, hzeros]
      · rw [if_neg hsmall, if_neg hlarge, List.length_drop]
        omega

theorem uses_fractional {d : Decimal} (hd : d.IsDecimal) : Uses ['.'] d.fractional := by
  rw [fractional_eq, uses_append, uses_cons]
  exact ⟨uses_of_digits _ fun _ => isDigit_of_mem_whole hd, Or.inr (List.mem_singleton_self _),
    uses_of_digits _ fun _ => isDigit_of_mem_fraction hd⟩

end Decimal

/-! ### Digits that are chosen -/

theorem isDecimal_zero : Decimal.zero.IsDecimal := by
  intro c h
  rw [List.mem_singleton.mp h]
  rfl

theorem mem_of_mem_dropZeros {cs : List Char} {c : Char} (h : c ∈ dropZeros cs) : c ∈ cs := by
  unfold dropZeros at h
  exact List.mem_reverse.mp ((List.dropWhile_sublist _).subset (List.mem_reverse.mp h))

theorem isDecimal_ofMultiple (c : Nat) (t : Int) : (Decimal.ofMultiple c t).IsDecimal :=
  fun _ h => isDigit_of_mem_decimal (mem_of_mem_dropZeros h)

theorem isDecimal_shortest (f : Format) (significand : Nat) (exponent : Int) :
    (f.shortest significand exponent).IsDecimal :=
  isDecimal_ofMultiple _ _

namespace Layout

/-- The decimal that is written for a finite value. -/
def chosen (f : Format) (significand : Nat) (exponent : Int) : Decimal :=
  if significand = 0 then Decimal.zero else f.shortest significand exponent

theorem isDecimal_chosen (f : Format) (significand : Nat) (exponent : Int) :
    (chosen f significand exponent).IsDecimal := by
  unfold chosen
  split
  · exact isDecimal_zero
  · exact isDecimal_shortest f significand exponent

/-- The text in a query of what a pattern stands for. -/
def valueChars (f : Format) : Value → List Char
  | .nan => "NaN".toList
  | .infinite negative => (if negative then ['-'] else []) ++ "Infinity".toList
  | .finite negative significand exponent =>
    (if negative then ['-'] else []) ++ (chosen f significand exponent).fractional

theorem write_query (f : Format) (bits : Nat) :
    query.write f bits = valueChars f (f.decode bits) := by
  unfold write
  cases f.decode bits <;> rfl

/-- The characters of a number in a query. -/
theorem uses_query (f : Format) (bits : Nat) :
    Uses ('-' :: '.' :: "NaInfity".toList) (query.write f bits) := by
  rw [write_query]
  cases f.decode bits with
  | nan => simp [valueChars]
  | infinite negative => cases negative <;> simp [valueChars]
  | finite negative significand exponent =>
    have hdigits : Uses ('-' :: '.' :: "NaInfity".toList)
        (chosen f significand exponent).fractional :=
      (Decimal.uses_fractional (isDecimal_chosen f significand exponent)).mono (by simp)
    cases negative <;> simpa [valueChars] using hdigits

/-- A number in a query shows a point, or that it is none or infinite. -/
theorem mark_mem_query (f : Format) (bits : Nat) :
    '.' ∈ query.write f bits ∨ 'N' ∈ query.write f bits ∨ 'I' ∈ query.write f bits := by
  rw [write_query]
  cases f.decode bits with
  | nan => simp [valueChars]
  | infinite negative => simp [valueChars]
  | finite negative significand exponent => simp [valueChars, Decimal.fractional_eq]

end Layout

end QueryTree.Number
