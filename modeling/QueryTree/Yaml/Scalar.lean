import QueryTree.Number.Nearest
import QueryTree.Text.Digits
import QueryTree.Yaml.Value

/-!
# Plain scalars as values

Which value a plain scalar stands for: nothing, a boolean, an integer in one of four bases, a
floating point number, or otherwise the text itself. Integers are kept up to 64 bits; from there up
to 128 bits they are refused, and beyond they are read as floating point numbers.
-/

namespace QueryTree.Yaml

open QueryTree.Number

/-- The scalar that stands for a boolean. -/
def boolOf? : String → Option Bool
  | "true" => some true
  | "True" => some true
  | "TRUE" => some true
  | "false" => some false
  | "False" => some false
  | "FALSE" => some false
  | _ => none

/-- One of the words for nothing. -/
def isNullWord (s : String) : Bool := s == "null" || s == "Null" || s == "NULL" || s == "~"

/-! ### Integers -/

/-- A leading sign is dropped. -/
def dropSign : List Char → List Char
  | '-' :: cs => cs
  | '+' :: cs => cs
  | cs => cs

/-- A leading plus sign is dropped. -/
def dropPlus : List Char → List Char
  | '+' :: cs => cs
  | cs => cs

/-- A sign comes first. -/
def beginsWithSign : List Char → Bool
  | '-' :: _ => true
  | '+' :: _ => true
  | _ => false

/-- Decimal digits with a superfluous zero in front are a text. -/
def hasLeadingZero (cs : List Char) : Bool :=
  match dropSign cs with
  | '0' :: c :: rest => (c :: rest).all Char.isDigit
  | _ => false

/-- The base that a letter after a zero stands for. -/
def baseOf? : Char → Option Nat
  | 'x' => some 16
  | 'o' => some 8
  | 'b' => some 2
  | _ => none

/-- Digits in a base that the scalar names, like `0x1f`. -/
def basedDigits? : List Char → Option Nat
  | '0' :: letter :: digits => (baseOf? letter).bind fun base => Text.value? base digits
  | _ => none

/-- An integer that is not negative, below a bound. -/
def unsignedBelow? (bound : Nat) (cs : List Char) : Option Nat :=
  let digits := dropPlus cs
  match (basedDigits? digits).filter (· < bound) with
  | some n => some n
  | none =>
    if hasLeadingZero cs then none else (Text.value? 10 digits).filter (· < bound)

/-- An integer after a minus sign, down to the negated bound. -/
def negativeFrom? (bound : Nat) : List Char → Option Int
  | '-' :: digits =>
    match (basedDigits? digits).filter (· ≤ bound) with
    | some n => some (-(n : Int))
    | none =>
      if hasLeadingZero digits then none
      else ((Text.value? 10 digits).filter (· ≤ bound)).map fun n => -(n : Int)
  | _ => none

/-- An integer that is too large for 64 bits, and how wide it is. -/
structure WideInteger where
  value : Int
  deriving Repr, DecidableEq

/-- The integer that a scalar stands for. -/
def intOf? (cs : List Char) : Option (Except WideInteger Int) :=
  match unsignedBelow? (Nat.pow 2 64) cs with
  | some n => some (.ok n)
  | none =>
    match negativeFrom? (Nat.pow 2 63) cs with
    | some n => some (.ok n)
    | none =>
      match unsignedBelow? (Nat.pow 2 128) cs with
      | some n => some (.error ⟨n⟩)
      | none => (negativeFrom? (Nat.pow 2 127) cs).map fun n => .error ⟨n⟩

/-! ### Floating point numbers -/

/-- The exponent after an `e`: a sign and digits. -/
def exponentOf? : List Char → Option Int
  | [] => some 0
  | c :: cs =>
    if c = 'e' ∨ c = 'E' then
      match cs with
      | '-' :: digits => (Text.value? 10 digits).map fun n => -(n : Int)
      | '+' :: digits => (Text.value? 10 digits).map fun n => (n : Int)
      | digits => (Text.value? 10 digits).map fun n => (n : Int)
    else none

/-- The digits before and after the point, and what follows them. -/
def fractionOf (cs : List Char) : List Char × List Char × List Char :=
  let whole := cs.takeWhile Char.isDigit
  match cs.dropWhile Char.isDigit with
  | '.' :: rest => (whole, rest.takeWhile Char.isDigit, rest.dropWhile Char.isDigit)
  | rest => (whole, [], rest)

/-- A decimal number with an optional fraction and exponent, as its nearest bit pattern; one beyond
the largest finite value is none. -/
def decimalOf? (cs : List Char) : Option Nat :=
  let negative := cs.head? == some '-'
  let (whole, fraction, rest) := fractionOf (if beginsWithSign cs then cs.drop 1 else cs)
  if whole.isEmpty && fraction.isEmpty then none
  else
    match exponentOf? rest with
    | none => none
    | some exponent =>
      let bits := Format.double.ofDecimal negative (Text.decimalValue (whole ++ fraction))
        (exponent - fraction.length)
      if bits % Format.double.signBit < Format.double.infinity then some bits else none

/-- One of the spellings of infinity. -/
def isInfinity (cs : List Char) : Bool :=
  cs == ".inf".toList || cs == ".Inf".toList || cs == ".INF".toList

/-- One of the spellings of the value that is no number. -/
def isNotANumber (cs : List Char) : Bool :=
  cs == ".nan".toList || cs == ".NaN".toList || cs == ".NAN".toList

/-- The bit pattern of the floating point number that a scalar stands for. -/
def floatOf? (cs : List Char) : Option Nat :=
  let double := Format.double
  let unsigned := dropPlus cs
  if cs.head? == some '+' && beginsWithSign unsigned then none
  else if isInfinity unsigned then some double.infinity
  else if cs.head? == some '-' && isInfinity (cs.drop 1) then some (double.signed true double.infinity)
  else if isNotANumber cs then some double.notANumber
  else decimalOf? unsigned

/-! ### All scalars -/

/-- The value of a plain scalar. -/
def plainValue (s : String) : Except WideInteger Value :=
  let cs := s.toList
  if cs.isEmpty || isNullWord s then .ok .null
  else
    match boolOf? s with
    | some b => .ok (.bool b)
    | none =>
      match intOf? cs with
      | some (.ok n) => .ok (.int n)
      | some (.error wide) => .error wide
      | none =>
        if hasLeadingZero cs then .ok (.text s)
        else
          match floatOf? cs with
          | some bits => .ok (.float (UInt64.ofNat bits))
          | none => .ok (.text s)

end QueryTree.Yaml
