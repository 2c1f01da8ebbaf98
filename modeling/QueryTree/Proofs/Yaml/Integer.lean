import Mathlib.Algebra.Ring.Int.Defs
import QueryTree.Proofs.Text.Digits
import QueryTree.Yaml.Scalar

/-!
# Integers as plain scalars

The decimal digits of an integer of 64 bits, with or without a sign, are the plain scalar of that
integer (`plainValue_integer`).
-/

namespace QueryTree.Yaml

open QueryTree.Text

/-! ### Digits -/

theorem dropSign_decimal (n : Nat) : dropSign (decimal n) = decimal n := by
  unfold dropSign
  split
  case h_1 h => exact absurd (isDigit_of_mem_decimal (h ▸ List.mem_cons_self)) (by decide)
  case h_2 h => exact absurd (isDigit_of_mem_decimal (h ▸ List.mem_cons_self)) (by decide)
  case h_3 => rfl

theorem dropPlus_decimal (n : Nat) : dropPlus (decimal n) = decimal n := by
  unfold dropPlus
  split
  case h_1 h => exact absurd (isDigit_of_mem_decimal (h ▸ List.mem_cons_self)) (by decide)
  case h_2 => rfl

theorem hasLeadingZero_decimal (n : Nat) : hasLeadingZero (decimal n) = false := by
  rw [hasLeadingZero, dropSign_decimal]
  split
  case h_1 h => exact absurd h (decimal_ne_zero_cons n _ _)
  case h_2 => rfl

theorem basedDigits?_decimal (n : Nat) : basedDigits? (decimal n) = none := by
  unfold basedDigits?
  split
  case h_1 h => exact absurd h (decimal_ne_zero_cons n _ _)
  case h_2 => rfl

/-! ### Integers -/

theorem unsignedBelow?_decimal {bound n : Nat} (h : n < bound) :
    unsignedBelow? bound (decimal n) = some n := by
  have hfilter : (value? 10 (decimal n)).filter (· < bound) = some n := by
    rw [value?_decimal, Option.filter_some, if_pos (decide_eq_true h)]
  rw [unsignedBelow?, dropPlus_decimal, basedDigits?_decimal, hasLeadingZero_decimal, hfilter]
  rfl

/-- A number after a minus sign is not read without it. -/
theorem unsignedBelow?_negative (bound n : Nat) :
    unsignedBelow? bound ('-' :: decimal n) = none := by
  have hvalue : value? 10 ('-' :: decimal n) = none := rfl
  rw [unsignedBelow?, dropPlus, basedDigits?, hvalue]
  · simp
  · simp
  · simp

theorem negativeFrom?_decimal {bound n : Nat} (h : n ≤ bound) :
    negativeFrom? bound ('-' :: decimal n) = some (-(n : Int)) := by
  have hfilter : (value? 10 (decimal n)).filter (· ≤ bound) = some n := by
    rw [value?_decimal, Option.filter_some, if_pos (decide_eq_true h)]
  rw [negativeFrom?, basedDigits?_decimal, hasLeadingZero_decimal, hfilter]
  rfl

theorem intOf?_integer {n : Int} (hlow : -2 ^ 63 ≤ n) (hhigh : n < 2 ^ 64) :
    intOf? (integer n) = some (.ok n) := by
  by_cases hneg : n < 0
  case pos =>
    have hbound : n.natAbs ≤ Nat.pow 2 63 := by
      simp only [Nat.pow_eq]
      omega
    have hvalue : -(n.natAbs : Int) = n := by omega
    rw [integer, if_pos hneg, intOf?, unsignedBelow?_negative, negativeFrom?_decimal hbound, hvalue]
  case neg =>
    have hbound : n.natAbs < Nat.pow 2 64 := by
      simp only [Nat.pow_eq]
      omega
    have hvalue : (n.natAbs : Int) = n := by omega
    rw [integer, if_neg hneg, intOf?, unsignedBelow?_decimal hbound]
    show some (Except.ok (n.natAbs : Int)) = _
    rw [hvalue]

/-! ### Scalars -/

theorem integer_ne_nil (n : Int) : integer n ≠ [] := by
  unfold integer
  split
  · exact List.cons_ne_nil _ _
  · exact decimal_ne_nil _

/-- The digits of an integer are no word. -/
theorem ofList_integer_ne {n : Int} {word : String} {c : Char} (hc : c ∈ word.toList)
    (hdigit : c.isDigit = false) (hsign : c ≠ '-') : String.ofList (integer n) ≠ word := by
  rintro rfl
  rw [String.toList_ofList] at hc
  exact (uses_integer n).notMem hdigit (by simpa using hsign) hc

/-- **The digits of an integer are the plain scalar of that integer.** -/
theorem plainValue_integer {n : Int} (hlow : -2 ^ 63 ≤ n) (hhigh : n < 2 ^ 64) :
    plainValue (String.ofList (integer n)) = .ok (.int n) := by
  have hempty : (integer n).isEmpty = false := by simpa using integer_ne_nil n
  have hnull : isNullWord (String.ofList (integer n)) = false := by
    simp only [isNullWord, Bool.or_eq_false_iff, beq_eq_false_iff_ne]
    exact ⟨⟨⟨ofList_integer_ne (c := 'l') (by decide) rfl (by decide),
      ofList_integer_ne (c := 'l') (by decide) rfl (by decide)⟩,
      ofList_integer_ne (c := 'L') (by decide) rfl (by decide)⟩,
      ofList_integer_ne (c := '~') (by decide) rfl (by decide)⟩
  have hbool : boolOf? (String.ofList (integer n)) = none := by
    unfold boolOf?
    split
    case h_1 h => exact absurd h (ofList_integer_ne (c := 'e') (by decide) rfl (by decide))
    case h_2 h => exact absurd h (ofList_integer_ne (c := 'e') (by decide) rfl (by decide))
    case h_3 h => exact absurd h (ofList_integer_ne (c := 'E') (by decide) rfl (by decide))
    case h_4 h => exact absurd h (ofList_integer_ne (c := 'e') (by decide) rfl (by decide))
    case h_5 h => exact absurd h (ofList_integer_ne (c := 'e') (by decide) rfl (by decide))
    case h_6 h => exact absurd h (ofList_integer_ne (c := 'E') (by decide) rfl (by decide))
    case h_7 => rfl
  simp only [plainValue, String.toList_ofList, hempty, hnull, hbool, intOf?_integer hlow hhigh]
  rfl

end QueryTree.Yaml
