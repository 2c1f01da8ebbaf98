import QueryTree.Calendar.DateTime
import QueryTree.Text.Digits

/-!
# Dates and date-times as text

The forms of RFC 3339: `YYYY-MM-DD` for a date and `YYYY-MM-DDTHH:MM:SS.mmm` with `Z` or a signed
offset for a date-time. A year outside 0 to 9999 is written with its sign and at least four digits.
The exact forms, which describe a value and cut nothing off, are beside them.
-/

namespace QueryTree.Calendar

open QueryTree.Text

/-- A year. -/
def yearChars (year : Int) : List Char :=
  if 0 ≤ year ∧ year ≤ 9999 then padded 4 year.natAbs
  else (if year < 0 then '-' else '+') :: padded 4 year.natAbs

/-- A date, `YYYY-MM-DD`. -/
def Date.chars (d : Date) : List Char :=
  yearChars d.year ++ ['-'] ++ padded 2 d.month ++ ['-'] ++ padded 2 d.day

/-- The hour, the minute and the shown second of a time of day. -/
def Time.clock (t : Time) : List Char :=
  padded 2 t.hour ++ [':'] ++ padded 2 t.minute ++ [':'] ++ padded 2 t.shownSecond

/-- A time of day to the millisecond, the rest cut off. -/
def Time.chars (t : Time) : List Char :=
  t.clock ++ ['.'] ++ padded 3 (t.shownNano / 1000000)

/-- Hours and minutes with a sign. -/
def signedMinutes (negative : Bool) (minutes : Nat) : List Char :=
  (if negative then '-' else '+') :: (padded 2 (minutes / 60) ++ [':'] ++ padded 2 (minutes % 60))

/-- An offset: `Z` for none, otherwise rounded to whole minutes, a half away from zero. -/
def offsetChars (offset : Int) : List Char :=
  if offset = 0 then ['Z'] else signedMinutes (offset < 0) ((offset.natAbs + 30) / 60)

/-- The time of day and the offset of a date-time, which follow its `T`. -/
def DateTime.clockChars (dt : DateTime) : List Char := dt.time.chars ++ offsetChars dt.offset

/-- A date-time, `YYYY-MM-DDTHH:MM:SS.mmm` and the offset. -/
def DateTime.chars (dt : DateTime) : List Char :=
  dt.date.chars ++ ['T'] ++ dt.clockChars

/-- A time of day with as many groups of three decimals as it needs. -/
def Time.exactChars (t : Time) : List Char :=
  t.clock ++
    (if t.shownNano = 0 then []
     else if t.shownNano % 1000000 = 0 then '.' :: padded 3 (t.shownNano / 1000000)
     else if t.shownNano % 1000 = 0 then '.' :: padded 6 (t.shownNano / 1000)
     else '.' :: padded 9 t.shownNano)

/-- An offset with its seconds, if it has any. -/
def exactOffsetChars (offset : Int) : List Char :=
  signedMinutes (offset < 0) (offset.natAbs / 60) ++
    (if offset.natAbs % 60 = 0 then [] else ':' :: padded 2 (offset.natAbs % 60))

/-- A date-time with nothing cut off. -/
def DateTime.exactChars (dt : DateTime) : List Char :=
  dt.date.chars ++ ['T'] ++ dt.time.exactChars ++ exactOffsetChars dt.offset

end QueryTree.Calendar
