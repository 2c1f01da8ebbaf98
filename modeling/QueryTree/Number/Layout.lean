import QueryTree.Number.Shortest

/-!
# Layouts of decimals

How a decimal is written: always positional, or with an exponent when the point would stand too far
from the digits. A `Layout` fixes from where to where the positional form is used and whether it
always shows a fraction, and the texts of the values that have no digits.
-/

namespace QueryTree.Number

open QueryTree.Text

namespace Decimal

/-- Zero. -/
def zero : Decimal := ⟨['0'], 1⟩

/-- Digits and zeros around the point, which is left out if no digit follows it. -/
def positional (d : Decimal) : List Char :=
  if d.point ≤ 0 then ['0', '.'] ++ List.replicate (-d.point).toNat '0' ++ d.digits
  else if d.digits.length ≤ d.point then
    d.digits ++ List.replicate (d.point.toNat - d.digits.length) '0'
  else d.digits.take d.point.toNat ++ ['.'] ++ d.digits.drop d.point.toNat

/-- The positional form with `.0` after it if it has no point. -/
def fractional (d : Decimal) : List Char :=
  if d.point ≤ 0 ∨ d.point < d.digits.length then d.positional else d.positional ++ ['.', '0']

/-- One digit before the point, the others after it, and the exponent. -/
def exponential (d : Decimal) : List Char :=
  d.digits.take 1 ++ (if d.digits.length ≤ 1 then [] else '.' :: d.digits.drop 1)
    ++ ['e'] ++ integer (d.point - 1)

end Decimal

/-- A way to write the values of a format. -/
structure Layout where
  /-- The texts of the values without digits. -/
  nan : List Char
  infinity : List Char
  /-- A point beyond these bounds is written with an exponent; `none` never. -/
  bounds : Option (Int × Int)
  /-- Whether a positional form always shows a fraction. -/
  fraction : Bool

namespace Layout

/-- A positive decimal in a layout. -/
def digits (l : Layout) (d : Decimal) : List Char :=
  let positional := if l.fraction then d.fractional else d.positional
  match l.bounds with
  | none => positional
  | some (least, greatest) =>
    if least ≤ d.point ∧ d.point ≤ greatest then positional else d.exponential

/-- The value of a bit pattern in a layout. -/
def write (l : Layout) (f : Format) (bits : Nat) : List Char :=
  match f.decode bits with
  | .nan => l.nan
  | .infinite negative => (if negative then ['-'] else []) ++ l.infinity
  | .finite negative significand exponent =>
    (if negative then ['-'] else []) ++
      l.digits (if significand = 0 then Decimal.zero else f.shortest significand exponent)

/-- Query texts: positional, with a fraction. -/
def query : Layout := ⟨"NaN".toList, "Infinity".toList, none, true⟩

/-- Messages: positional, with a fraction. -/
def message : Layout := ⟨"NaN".toList, "inf".toList, none, true⟩

/-- Structural descriptions: an exponent from `1e16` on and below `1e-4`. -/
def structural : Layout := ⟨"NaN".toList, "inf".toList, some (-3, 16), true⟩

/-- Keys of documents: an exponent from `1e16` on and below `1e-5`. -/
def documentKey : Layout := ⟨".nan".toList, ".inf".toList, some (-4, 16), true⟩

end Layout

end QueryTree.Number
