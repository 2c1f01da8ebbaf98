import QueryTree.Number.Format
import QueryTree.Text.Digits

/-!
# The shortest decimal

The decimal with the fewest digits among those that round to a given value, and of these the one
nearest to it. The reals that round to a value form an interval, closed when the significand is even.
For one digit, two digits and so on the two neighbours of the value with that many digits are tried;
the first count with a neighbour inside the interval wins, and of two such neighbours the nearer one
(the larger, if they are equally near).
-/

namespace QueryTree.Number

open QueryTree.Text

/-- The decimal `0.d₁d₂… * 10 ^ point`. -/
structure Decimal where
  digits : List Char
  point : Int
  deriving Repr, DecidableEq

/-- A value and the ends of the interval that rounds to it, as multiples of `1 / den`. -/
structure Interval where
  low : Nat
  value : Nat
  high : Nat
  den : Nat
  closed : Bool

namespace Interval

/-- The interval around `significand * 2 ^ exponent`. Below a power of two the values lie twice as
close; `narrow` says that this is such a place. -/
def around (significand : Nat) (exponent : Int) (narrow : Bool) : Interval :=
  let up := (exponent - 2).toNat
  { low := (4 * significand - if narrow then 1 else 2) * Nat.pow 2 up
    value := 4 * significand * Nat.pow 2 up
    high := (4 * significand + 2) * Nat.pow 2 up
    den := Nat.pow 2 (2 - exponent).toNat
    closed := significand % 2 == 0 }

/-- The number of decimal digits before the point; zero or negative if the value is below one. -/
def point (i : Interval) : Int :=
  if i.den ≤ i.value then ((decimal (i.value / i.den)).length : Int)
  else 1 - ((decimal ((i.den + i.value - 1) / i.value - 1)).length : Int)

/-- `c * 10 ^ t` lies in the interval. -/
def holds (i : Interval) (t : Int) (c : Nat) : Bool :=
  let x := c * (i.den * Nat.pow 10 t.toNat)
  let low := i.low * Nat.pow 10 (-t).toNat
  let high := i.high * Nat.pow 10 (-t).toNat
  if i.closed then low ≤ x && x ≤ high else low < x && x < high

/-- The best multiple of `10 ^ t` in the interval, if one of the value's neighbours is inside. -/
def hit? (i : Interval) (t : Int) : Option Nat :=
  let unit := i.den * Nat.pow 10 t.toNat
  let target := i.value * Nat.pow 10 (-t).toNat
  let below := target / unit
  let above := below + 1
  match i.holds t below, i.holds t above with
  | true, true => some (if target - below * unit < above * unit - target then below else above)
  | true, false => some below
  | false, true => some above
  | false, false => none

/-- The first hit on the grids `10 ^ t`, `10 ^ (t - 1)`, … -/
def firstHit (i : Interval) : Nat → Int → Nat × Int
  | 0, t => (i.value * Nat.pow 10 (-t).toNat / (i.den * Nat.pow 10 t.toNat), t)
  | n + 1, t =>
    match i.hit? t with
    | some c => (c, t)
    | none => i.firstHit n (t - 1)

end Interval

/-- A list of digits without the zeros at its end. -/
def dropZeros (digits : List Char) : List Char := (digits.reverse.dropWhile (· == '0')).reverse

/-- The decimal of a multiple of a power of ten. -/
def Decimal.ofMultiple (c : Nat) (t : Int) : Decimal :=
  ⟨dropZeros (decimal c), ((decimal c).length : Int) + t⟩

/-- The shortest decimal of a positive value of a format. -/
def Format.shortest (f : Format) (significand : Nat) (exponent : Int) : Decimal :=
  let narrow := significand == f.hidden && decide (-(f.scale : Int) < exponent)
  let i := Interval.around significand exponent narrow
  let (c, t) := i.firstHit 18 (i.point - 1)
  Decimal.ofMultiple c t

end QueryTree.Number
