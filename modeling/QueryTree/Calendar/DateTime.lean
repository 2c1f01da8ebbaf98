import QueryTree.Calendar.Date

/-!
# Date-times

A local date and a local time of day at a fixed offset from UTC. A leap second belongs to the second
before it: its nanoseconds are counted from `10 ^ 9` on. Two date-times are the same instant if they
agree once their offsets are taken away; a leap second is an instant of its own.
-/

namespace QueryTree.Calendar

/-- A time of day. -/
structure Time where
  hour : Nat
  minute : Nat
  second : Nat
  nano : Nat
  hour_lt : hour < 24
  minute_lt : minute < 60
  second_lt : second < 60
  nano_lt : nano < 2000000000
  deriving DecidableEq

namespace Time

/-- The time of day with an hour, a minute, a second and nanoseconds, if there is one. -/
def of? (hour minute second nano : Nat) : Option Time :=
  if h : hour < 24 ∧ minute < 60 ∧ second < 60 ∧ nano < 2000000000 then
    some ⟨hour, minute, second, nano, h.1, h.2.1, h.2.2.1, h.2.2.2⟩
  else none

/-- The seconds since midnight. -/
def seconds (t : Time) : Nat := t.hour * 3600 + t.minute * 60 + t.second

/-- The second as it is shown: a leap second is the one after the second it belongs to. -/
def shownSecond (t : Time) : Nat := t.second + t.nano / 1000000000

/-- The nanoseconds of the shown second. -/
def shownNano (t : Time) : Nat := t.nano % 1000000000

/-- Midnight, when parts of a millisecond do not count; no leap second is midnight. -/
def isMidnight (t : Time) : Bool :=
  t.hour == 0 && t.minute == 0 && t.second == 0 && t.nano / 1000000 == 0

end Time

/-- A date-time; `offset` is in seconds east of UTC. -/
structure DateTime where
  date : Date
  time : Time
  offset : Int
  lt_offset : -86400 < offset
  offset_lt : offset < 86400
  deriving DecidableEq

namespace DateTime

/-- The date-time with a date, a time of day and an offset, if the offset is less than a day. -/
def of? (date : Date) (time : Time) (offset : Int) : Option DateTime :=
  if h : -86400 < offset ∧ offset < 86400 then some ⟨date, time, offset, h.1, h.2⟩ else none

/-- The seconds of the instant, counted from a fixed one, and its nanoseconds. -/
def instant (dt : DateTime) : Int × Nat :=
  (dt.date.number * 86400 + dt.time.seconds - dt.offset, dt.time.nano)

/-- The same instant. -/
def sameInstant (a b : DateTime) : Bool := a.instant == b.instant

/-- The same instant at offset zero, if its date can be held. -/
def toUtc? (dt : DateTime) : Option DateTime :=
  let seconds : Int := dt.time.seconds - dt.offset
  let date := if seconds < 0 then dt.date.previous?
    else if 86400 ≤ seconds then dt.date.next? else some dt.date
  let ofDay := (seconds % 86400).toNat
  match date, Time.of? (ofDay / 3600) (ofDay / 60 % 60) (ofDay % 60) dt.time.nano with
  | some date, some time => of? date time 0
  | _, _ => none

end DateTime

end QueryTree.Calendar
