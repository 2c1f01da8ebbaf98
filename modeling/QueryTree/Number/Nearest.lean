import QueryTree.Number.Format

/-!
# Rounding to the nearest value

The value of a format that is nearest to an exact ratio of natural numbers. Of two values equally
near the one with the even significand is taken, and a ratio beyond the largest value becomes
infinity. Integers, decimals and values of another format are rounded through it.
-/

namespace QueryTree.Number

/-- The natural number nearest to `num / den`, the even one of two. -/
def roundDiv (num den : Nat) : Nat :=
  let quotient := num / den
  let rest := num % den
  if 2 * rest < den then quotient
  else if den < 2 * rest then quotient + 1
  else quotient + quotient % 2

namespace Format

/-- The magnitude nearest to `num / den`, for a positive `den`. -/
def nearest (f : Format) (num den : Nat) : Nat :=
  let scaled := num * Nat.pow 2 f.scale
  let order := (scaled / den).log2 - f.fractionBits
  min f.infinity (f.pack order (roundDiv scaled (den * Nat.pow 2 order)))

/-- The pattern nearest to an integer. -/
def ofInt (f : Format) (n : Int) : Nat :=
  f.signed (n < 0) (f.nearest n.natAbs 1)

/-- The pattern nearest to `significand * 2 ^ exponent`, with a sign. -/
def ofBinary (f : Format) (negative : Bool) (significand : Nat) (exponent : Int) : Nat :=
  f.signed negative
    (if 0 ≤ exponent then f.nearest (significand * Nat.pow 2 exponent.toNat) 1
     else f.nearest significand (Nat.pow 2 (-exponent).toNat))

/-- The decimal orders of magnitude that decide whether a decimal number is far beyond a format. -/
def decimalReach (f : Format) : Int :=
  (Nat.pow 2 f.exponentBits + f.fractionBits : Nat)

/-- The pattern nearest to `digits * 10 ^ exponent`, with a sign. A number whose leading digit
stands farther from the point than any digit of a finite value is decided by that alone. -/
def ofDecimal (f : Format) (negative : Bool) (digits : Nat) (exponent : Int) : Nat :=
  let lead := (digits.log2 : Int) / 4 + exponent
  f.signed negative
    (if digits = 0 then 0
     else if f.decimalReach < lead then f.infinity
     else if lead + digits.log2 + f.decimalReach < 0 then 0
     else if 0 ≤ exponent then f.nearest (digits * Nat.pow 10 exponent.toNat) 1
     else f.nearest digits (Nat.pow 10 (-exponent).toNat))

/-- The pattern of format `g` nearest to a pattern of format `f`. -/
def convert (f g : Format) (bits : Nat) : Nat :=
  match f.decode bits with
  | .nan => g.notANumber
  | .infinite negative => g.signed negative g.infinity
  | .finite negative significand exponent => g.ofBinary negative significand exponent

end Format

end QueryTree.Number
