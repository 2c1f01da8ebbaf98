/-!
# Binary floating point

The two binary interchange formats the library stores, with 32 and with 64 bits, as bit patterns. A
pattern without its sign, its *magnitude*, is read as `significand * 2 ^ exponent` with a natural
significand; `Format.pack` is the way back. Patterns grow with the values they stand for: one step
of the significand is one step of the pattern, also where the exponent changes.
-/

namespace QueryTree.Number

/-- A binary format: a sign bit, `exponentBits` of exponent and `fractionBits` of fraction. -/
structure Format where
  fractionBits : Nat
  exponentBits : Nat
  deriving Repr, DecidableEq

namespace Format

/-- The format with 32 bits. -/
def single : Format := ⟨23, 8⟩

/-- The format with 64 bits. -/
def double : Format := ⟨52, 11⟩

/-- The number of steps of the significand that share an exponent. -/
def hidden (f : Format) : Nat := Nat.pow 2 f.fractionBits

/-- The pattern of the sign bit alone. -/
def signBit (f : Format) : Nat := Nat.pow 2 (f.fractionBits + f.exponentBits)

/-- The pattern of positive infinity; the patterns from it up to the sign bit are infinity and the
values that are no number. -/
def infinity (f : Format) : Nat := (Nat.pow 2 f.exponentBits - 1) * f.hidden

/-- The smallest positive value is `2` to the power of minus this number. -/
def scale (f : Format) : Nat := Nat.pow 2 (f.exponentBits - 1) - 2 + f.fractionBits

/-- A value that is no number. -/
def notANumber (f : Format) : Nat := f.infinity + f.hidden / 2

end Format

/-- What a bit pattern stands for. -/
inductive Value where
  /-- No number. -/
  | nan
  /-- One of the two infinities. -/
  | infinite (negative : Bool)
  /-- `significand * 2 ^ exponent`, negated if `negative`; zero has a sign too. -/
  | finite (negative : Bool) (significand : Nat) (exponent : Int)
  deriving Repr, DecidableEq

namespace Format

/-- The number of binary orders of a finite magnitude above the smallest one. -/
def order (f : Format) (magnitude : Nat) : Nat := magnitude / f.hidden - 1

/-- The significand of a finite magnitude. -/
def significand (f : Format) (magnitude : Nat) : Nat := magnitude - f.order magnitude * f.hidden

/-- The magnitude with a significand and an order. -/
def pack (f : Format) (order significand : Nat) : Nat := order * f.hidden + significand

/-- Reading a bit pattern. -/
def decode (f : Format) (bits : Nat) : Value :=
  let magnitude := bits % f.signBit
  let negative := bits / f.signBit % 2 == 1
  if f.infinity < magnitude then .nan
  else if magnitude = f.infinity then .infinite negative
  else .finite negative (f.significand magnitude) ((f.order magnitude : Int) - f.scale)

/-- A magnitude with a sign. -/
def signed (f : Format) (negative : Bool) (magnitude : Nat) : Nat :=
  if negative then f.signBit + magnitude else magnitude

/-- Equality of numbers: a value that is no number equals nothing, and the two zeros are equal. -/
def equal (f : Format) (a b : Nat) : Bool :=
  match f.decode a, f.decode b with
  | .nan, _ => false
  | _, .nan => false
  | .infinite m, .infinite n => m == n
  | .finite m s e, .finite n t d => s == t && ((s == 0) || (m == n && e == d))
  | _, _ => false

/-- A significand and the order above the smallest one come back from the magnitude they make. -/
theorem pack_order_significand (f : Format) (magnitude : Nat) :
    f.pack (f.order magnitude) (f.significand magnitude) = magnitude := by
  have h : f.order magnitude * f.hidden ≤ magnitude := by
    have h₁ : f.order magnitude * f.hidden ≤ magnitude / f.hidden * f.hidden :=
      Nat.mul_le_mul_right _ (Nat.sub_le _ _)
    exact Nat.le_trans h₁ (Nat.div_mul_le_self _ _)
  simp only [pack, significand]
  omega

end Format

end QueryTree.Number
