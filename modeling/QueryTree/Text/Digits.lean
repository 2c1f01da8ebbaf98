/-!
# Digits

Numbers in positional notation: the decimal digits of a natural number, with leading zeros up to a
width, an integer with its sign, and the number that a list of digits in a base stands for.
-/

namespace QueryTree.Text

/-- The decimal digits of `n`, the most significant first, without a leading zero unless `n` is
zero. -/
def decimal (n : Nat) : List Char := Nat.toDigits 10 n

/-- The number that a list of decimal digits stands for. -/
def decimalValue (cs : List Char) : Nat := Nat.ofDigitChars 10 cs 0

/-- Reading the digits of a number gives the number back. -/
theorem decimalValue_decimal (n : Nat) : decimalValue (decimal n) = n :=
  Nat.ofDigitChars_toDigits (by decide) (by decide)

/-- `cs` with zeros put before it up to `width` characters. -/
def padZeros (width : Nat) (cs : List Char) : List Char :=
  List.replicate (width - cs.length) '0' ++ cs

/-- The decimal digits of `n`, with zeros before them up to `width` digits. -/
def padded (width : Nat) (n : Nat) : List Char := padZeros width (decimal n)

/-- The decimal digits of an integer, after a minus sign if it is negative. -/
def integer (n : Int) : List Char :=
  if n < 0 then '-' :: decimal n.natAbs else decimal n.natAbs

/-- The value of a digit or letter as a digit of a base up to 36, in either case. -/
def digitValue? (c : Char) : Option Nat :=
  let n := c.toNat
  if 48 ≤ n ∧ n ≤ 57 then some (n - 48)
  else if 97 ≤ n ∧ n ≤ 122 then some (n - 87)
  else if 65 ≤ n ∧ n ≤ 90 then some (n - 55)
  else none

/-- The value of a digit of a base. -/
def digitIn? (base : Nat) (c : Char) : Option Nat := (digitValue? c).filter (· < base)

/-- The number that the digits stand for after `acc`, if all of them are digits of the base. -/
def valueAfter? (base : Nat) : Nat → List Char → Option Nat
  | acc, [] => some acc
  | acc, c :: cs =>
    match digitIn? base c with
    | some d => valueAfter? base (acc * base + d) cs
    | none => none

/-- The number that a non-empty list of digits of a base stands for. -/
def value? (base : Nat) (cs : List Char) : Option Nat :=
  if cs.isEmpty then none else valueAfter? base 0 cs

end QueryTree.Text
