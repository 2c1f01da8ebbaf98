import QueryTree.Calendar.DateTime
import QueryTree.Text.Digits
import QueryTree.Text.Space

/-!
# Reading dates and date-times

The readers of `YYYY-MM-DD` and of RFC 3339 date-times. Each takes its text from left to right and
stops at the first fault. A date may have white space before its numbers and a signed year of any
length; a date-time has fixed places up to the seconds, then an optional fraction and the offset.
-/

namespace QueryTree.Calendar

open QueryTree.Text

/-- Why a text is no date or date-time. -/
inductive ReadError where
  /-- A character does not fit its place. -/
  | invalid
  /-- A number, or the day they make, does not exist. -/
  | outOfRange
  /-- The text ends too early. -/
  | tooShort
  /-- Something follows. -/
  | tooLong
  deriving Repr, DecidableEq

/-- The wording of an error. -/
def ReadError.message : ReadError → String
  | .invalid => "input contains invalid characters"
  | .outOfRange => "input is out of range"
  | .tooShort => "premature end of input"
  | .tooLong => "trailing input"

/-- A reader takes the beginning of a text and leaves the rest. -/
abbrev Reader (α : Type) := List Char → Except ReadError (α × List Char)

/-- A reader of a whole text. -/
def readAll {α : Type} (read : Reader α) (cs : List Char) : Except ReadError α := do
  let (a, rest) ← read cs
  if rest.isEmpty then .ok a else .error .tooLong

/-- The number made of the decimal digits at the beginning, at most `width` of them if it is given;
there must be one. -/
def readNumber (width : Option Nat) : Reader Nat := fun cs =>
  let run := cs.takeWhile Char.isDigit
  let digits := match width with
    | some n => run.take n
    | none => run
  if cs.isEmpty then .error .tooShort
  else if digits.isEmpty then .error .invalid
  else .ok (decimalValue digits, cs.drop digits.length)

/-- A fixed character. -/
def readChar (expected : Char) : Reader Unit
  | [] => .error .tooShort
  | c :: cs => if c = expected then .ok ((), cs) else .error .invalid

/-! ### Dates -/

/-- A year: at most four digits, or a sign and any number of digits. -/
def readYear : Reader Int := fun cs => do
  match dropLeading cs with
  | '-' :: cs => let (n, cs) ← readNumber none cs; .ok (-(n : Int), cs)
  | '+' :: cs => let (n, cs) ← readNumber none cs; .ok ((n : Int), cs)
  | cs => let (n, cs) ← readNumber (some 4) cs; .ok ((n : Int), cs)

/-- A number within bounds. -/
def readWithin (least greatest : Int) (read : Reader Int) : Reader Int := fun cs => do
  let (n, cs) ← read cs
  if least ≤ n ∧ n ≤ greatest then .ok (n, cs) else .error .outOfRange

/-- One or two digits after white space. -/
def readPair : Reader Int := fun cs => do
  let (n, cs) ← readNumber (some 2) (dropLeading cs)
  .ok ((n : Int), cs)

/-- The three numbers of a date. -/
def readDateFields : Reader (Int × Int × Int) := fun cs => do
  let (year, cs) ← readWithin Int32.minValue.toInt Int32.maxValue.toInt readYear cs
  let ((), cs) ← readChar '-' cs
  let (month, cs) ← readWithin 1 12 readPair cs
  let ((), cs) ← readChar '-' cs
  let (day, cs) ← readWithin 1 31 readPair cs
  .ok ((year, month, day), cs)

/-- Reading a date. -/
def Date.read (s : String) : Except ReadError Date := do
  let (year, month, day) ← readAll readDateFields s.toList
  match Date.of? year month.toNat day.toNat with
  | some d => .ok d
  | none => .error .outOfRange

/-! ### Date-times -/

/-- Exactly `n` digits, where the text is known to be long enough. -/
def readDigits (n : Nat) : Reader Nat := fun cs =>
  let digits := cs.take n
  if digits.length = n ∧ digits.all Char.isDigit then .ok (decimalValue digits, cs.drop n)
  else .error .invalid

/-- One of some characters, where the text is known to be long enough. -/
def readOneOf (allowed : List Char) : Reader Unit
  | [] => .error .invalid
  | c :: cs => if allowed.contains c then .ok ((), cs) else .error .invalid

/-- The nanoseconds that follow a point: nine digits count, and more may follow. -/
def readFraction : Reader Nat := fun cs => do
  let (n, _) ← readNumber (some 9) cs
  let run := cs.takeWhile Char.isDigit
  .ok (n * Nat.pow 10 (9 - run.length), cs.drop run.length)

/-- Two digits of an offset. -/
def readOffsetPair : Reader Nat
  | [] => .error .tooShort
  | [c] => if c.toNat < 128 then .error .tooShort else .error .invalid
  | a :: b :: cs =>
    if a.isDigit && b.isDigit then .ok (decimalValue [a, b], cs) else .error .invalid

/-- The sign of an offset, a hyphen or a minus sign for the negative ones. -/
def readSign : Reader Bool
  | [] => .error .tooShort
  | c :: cs =>
    if c = '+' then .ok (false, cs)
    else if c = '-' ∨ c = '\u2212' then .ok (true, cs)
    else .error .invalid

/-- An offset in seconds: `Z`, or a sign, hours and minutes. -/
def readOffset : Reader Int := fun cs =>
  match cs with
  | 'Z' :: rest => .ok (0, rest)
  | 'z' :: rest => .ok (0, rest)
  | _ => do
    let (negative, cs) ← readSign cs
    let (hours, cs) ← readOffsetPair cs
    let ((), cs) ← readChar ':' cs
    let (minutes, cs) ← readOffsetPair cs
    if 60 ≤ minutes then .error .outOfRange
    else
      let seconds : Int := hours * 3600 + minutes * 60
      .ok (if negative then -seconds else seconds, cs)

/-- The date of a date-time, `YYYY-MM-DD` with fixed places. -/
def readFixedDate : Reader Date := fun cs => do
  let (year, cs) ← readDigits 4 cs
  let ((), cs) ← readOneOf ['-'] cs
  let (month, cs) ← readDigits 2 cs
  let ((), cs) ← readOneOf ['-'] cs
  let (day, cs) ← readDigits 2 cs
  match Date.of? year month day with
  | some d => .ok (d, cs)
  | none => .error .outOfRange

/-- The time of day of a date-time; second 60 is the leap second of second 59. -/
def readFixedTime : Reader Time := fun cs => do
  let (hour, cs) ← readDigits 2 cs
  let ((), cs) ← readOneOf [':'] cs
  let (minute, cs) ← readDigits 2 cs
  let ((), cs) ← readOneOf [':'] cs
  let (second, cs) ← readDigits 2 cs
  let (nano, cs) ← match cs with
    | '.' :: rest => readFraction rest
    | rest => .ok (0, rest)
  let time := if second = 60 then Time.of? hour minute 59 (1000000000 + nano)
    else Time.of? hour minute second nano
  match time with
  | some t => .ok (t, cs)
  | none => .error .outOfRange

/-- The parts of a date-time. -/
def readDateTimeFields : Reader (Date × Time × Int) := fun cs => do
  let (date, cs) ← readFixedDate cs
  let ((), cs) ← readOneOf ['T', 't', ' '] cs
  let (time, cs) ← readFixedTime cs
  let (offset, cs) ← readOffset cs
  .ok ((date, time, offset), cs)

/-- Reading a date-time; a text of less than 19 bytes is too short for one. -/
def DateTime.read (s : String) : Except ReadError DateTime := do
  if s.utf8ByteSize < 19 then .error .tooShort
  else
    let (date, time, offset) ← readAll readDateTimeFields s.toList
    match DateTime.of? date time offset with
    | some dt => .ok dt
    | none => .error .outOfRange

end QueryTree.Calendar
