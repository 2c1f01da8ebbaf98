import QueryTree.Calendar.Writing
import QueryTree.Proofs.Text.Digits
import QueryTree.Proofs.Text.Front

/-!
# What dates and date-times show

A date is determined by its text. Of a date-time the text shows the date, the time of day to the
millisecond and the offset to the minute (`DateTime.shown`), and it is determined by these
(`DateTime.chars_eq_iff`).
-/

namespace QueryTree.Calendar

open QueryTree.Text

/-! ### Dates -/

theorem uses_yearChars (year : Int) : Uses ['-', '+'] (yearChars year) := by
  unfold yearChars
  split
  · exact uses_padded _ _ _
  · split <;> simp

theorem yearChars_ne_nil (year : Int) : yearChars year ≠ [] := by
  unfold yearChars
  split
  · exact padded_ne_nil _ _
  · exact List.cons_ne_nil _ _

/-- A year is determined by its text: the sign tells the years outside 0 to 9999. -/
theorem yearChars_inj {a b : Int} (h : yearChars a = yearChars b) : a = b := by
  have signed : ∀ {n : Int} {k l : Nat},
      (if n < 0 then '-' else '+') :: padded 4 k ≠ padded 4 l := by
    intro n k l h
    have hsign : (if n < 0 then '-' else '+').isDigit = false := by split <;> rfl
    exact (uses_padded [] 4 l).notMem hsign List.not_mem_nil (h ▸ List.mem_cons_self ..)
  by_cases ha : 0 ≤ a ∧ a ≤ 9999 <;> by_cases hb : 0 ≤ b ∧ b ≤ 9999
  · rw [yearChars, yearChars, if_pos ha, if_pos hb] at h
    have := padded_inj h
    omega
  · rw [yearChars, yearChars, if_pos ha, if_neg hb] at h
    exact absurd h.symm signed
  · rw [yearChars, yearChars, if_neg ha, if_pos hb] at h
    exact absurd h signed
  · rw [yearChars, yearChars, if_neg ha, if_neg hb] at h
    obtain ⟨hsign, hdigits⟩ := List.cons.inj h
    have habs := padded_inj hdigits
    split at hsign <;> split at hsign
    · omega
    · cases hsign
    · cases hsign
    · omega

theorem Date.uses_chars (d : Date) : Uses ['-', '+'] d.chars := by
  simp [Date.chars, uses_yearChars]

theorem Date.month_lt (d : Date) : d.month < 100 := by
  have := d.exists_day
  unfold IsDate at this
  omega

theorem daysIn_le (year : Int) (month : Nat) : daysIn year month ≤ 31 := by
  unfold daysIn
  split
  · split <;> omega
  · split <;> omega

theorem Date.day_lt (d : Date) : d.day < 100 := by
  obtain ⟨-, -, -, -, -, h⟩ := d.exists_day
  have := daysIn_le d.year d.month
  omega

/-- Two fields of two digits are equally long. -/
theorem length_two_fields {m n : Nat} (hm : m < 100) (hn : n < 100) :
    (padded 2 m).length = (padded 2 n).length := by
  rw [length_padded (by decide) hm, length_padded (by decide) hn]

/-- A date is determined by its text. -/
theorem Date.chars_inj {d e : Date} (h : d.chars = e.chars) : d = e := by
  obtain ⟨h, hday⟩ := List.append_inj' h (length_two_fields d.day_lt e.day_lt)
  obtain ⟨h, -⟩ := List.append_inj' h rfl
  obtain ⟨h, hmonth⟩ := List.append_inj' h (length_two_fields d.month_lt e.month_lt)
  obtain ⟨hyear, -⟩ := List.append_inj' h rfl
  obtain ⟨year, month, day, _⟩ := d
  obtain ⟨year', month', day', _⟩ := e
  obtain rfl : year = year' := yearChars_inj hyear
  obtain rfl : month = month' := padded_inj hmonth
  obtain rfl : day = day' := padded_inj hday
  rfl

/-- The hyphens of a date are not all at its beginning. -/
theorem Date.hyphen_mem_tail_chars (d : Date) : '-' ∈ d.chars.tail := by
  obtain ⟨c, cs, hc⟩ := List.exists_cons_of_ne_nil (yearChars_ne_nil d.year)
  simp [Date.chars, hc]

/-! ### Date-times -/

/-- An offset as it is shown: nothing for none, otherwise its sign and its minutes. -/
def shownOffset (offset : Int) : Option (Bool × Nat) :=
  if offset = 0 then none else some (offset < 0, (offset.natAbs + 30) / 60)

/-- What is shown of a date-time. -/
structure Shown where
  date : Date
  hour : Nat
  minute : Nat
  second : Nat
  milli : Nat
  offset : Option (Bool × Nat)
  deriving DecidableEq

/-- A date-time as it is shown: a leap second as the one after the second it belongs to, the parts
of a millisecond cut off, the offset rounded to minutes. -/
def DateTime.shown (dt : DateTime) : Shown :=
  { date := dt.date
    hour := dt.time.hour
    minute := dt.time.minute
    second := dt.time.shownSecond
    milli := dt.time.shownNano / 1000000
    offset := shownOffset dt.offset }

theorem signedMinutes_inj {a b : Bool} {m n : Nat} (h : signedMinutes a m = signedMinutes b n) :
    a = b ∧ m = n := by
  obtain ⟨hsign, h⟩ := List.cons.inj h
  have hlen : (padded 2 (m % 60)).length = (padded 2 (n % 60)).length := by
    rw [length_padded (by decide) (by omega), length_padded (by decide) (by omega)]
  obtain ⟨h, hminutes⟩ := List.append_inj' h hlen
  obtain ⟨hhours, -⟩ := List.append_inj' h rfl
  have h₁ := padded_inj hhours
  have h₂ := padded_inj hminutes
  refine ⟨?_, by omega⟩
  cases a <;> cases b <;> simp_all

/-- The text of an offset is determined by what is shown of it, and the other way round. -/
theorem offsetChars_eq_iff (a b : Int) :
    offsetChars a = offsetChars b ↔ shownOffset a = shownOffset b := by
  have zulu : ∀ negative minutes, ['Z'] ≠ signedMinutes negative minutes := by
    intro negative minutes h
    cases negative <;> simp [signedMinutes] at h
  unfold offsetChars shownOffset
  by_cases ha : a = 0 <;> by_cases hb : b = 0
  · simp [ha, hb]
  · simp [ha, hb, zulu]
  · simp [ha, hb, (zulu _ _).symm]
  · rw [if_neg ha, if_neg hb, if_neg ha, if_neg hb, Option.some.injEq, Prod.mk.injEq]
    exact ⟨signedMinutes_inj, fun ⟨hsign, hminutes⟩ => by rw [hsign, hminutes]⟩

theorem Time.shownSecond_lt (t : Time) : t.shownSecond < 100 := by
  have := t.second_lt
  have := t.nano_lt
  unfold Time.shownSecond
  omega

/-- The text of a time of day is determined by the fields it shows, and the other way round. -/
theorem Time.chars_eq_iff (t u : Time) :
    t.chars = u.chars ↔ t.hour = u.hour ∧ t.minute = u.minute ∧ t.shownSecond = u.shownSecond ∧
      t.shownNano / 1000000 = u.shownNano / 1000000 := by
  constructor
  · intro h
    have hmilli : (padded 3 (t.shownNano / 1000000)).length =
        (padded 3 (u.shownNano / 1000000)).length := by
      rw [length_padded (by decide) (by unfold Time.shownNano; omega),
        length_padded (by decide) (by unfold Time.shownNano; omega)]
    obtain ⟨h, hmilli⟩ := List.append_inj' h hmilli
    obtain ⟨h, -⟩ := List.append_inj' h rfl
    obtain ⟨h, hsecond⟩ := List.append_inj' h
      (length_two_fields t.shownSecond_lt u.shownSecond_lt)
    obtain ⟨h, -⟩ := List.append_inj' h rfl
    obtain ⟨h, hminute⟩ := List.append_inj' h
      (length_two_fields (by have := t.minute_lt; omega) (by have := u.minute_lt; omega))
    obtain ⟨hhour, -⟩ := List.append_inj' h rfl
    exact ⟨padded_inj hhour, padded_inj hminute, padded_inj hsecond, padded_inj hmilli⟩
  · rintro ⟨hhour, hminute, hsecond, hmilli⟩
    rw [Time.chars, Time.chars, Time.clock, Time.clock, hhour, hminute, hsecond, hmilli]

/-- The fields of a clock have fixed widths. -/
theorem Time.length_clock (t : Time) : t.clock.length = 8 := by
  have hh : (padded 2 t.hour).length = 2 :=
    length_padded (by decide) (by have := t.hour_lt; omega)
  have hm : (padded 2 t.minute).length = 2 :=
    length_padded (by decide) (by have := t.minute_lt; omega)
  have hs : (padded 2 t.shownSecond).length = 2 := length_padded (by decide) t.shownSecond_lt
  simp [Time.clock, hh, hm, hs]

theorem Time.length_chars (t : Time) : t.chars.length = 12 := by
  have hn : (padded 3 (t.shownNano / 1000000)).length = 3 :=
    length_padded (by decide) (by unfold Time.shownNano; omega)
  simp [Time.chars, t.length_clock, hn]

theorem uses_offsetChars (offset : Int) : Uses ['-', '+', ':', 'Z'] (offsetChars offset) := by
  unfold offsetChars
  split
  · simp
  · unfold signedMinutes
    split <;> simp

/-- The characters of the time of day and the offset. -/
theorem DateTime.uses_clockChars (dt : DateTime) :
    Uses ['-', '+', ':', 'Z', '.'] dt.clockChars := by
  have : Uses ['-', '+', ':', 'Z', '.'] (offsetChars dt.offset) :=
    (uses_offsetChars dt.offset).mono (by simp)
  simp [DateTime.clockChars, Time.chars, Time.clock, this]

/-- **What a date-time shows**: two date-times have the same text if and only if they show the same
date, time of day and offset. -/
theorem DateTime.chars_eq_iff (a b : DateTime) : a.chars = b.chars ↔ a.shown = b.shown := by
  have hshown : a.shown = b.shown ↔ a.date = b.date ∧ a.time.chars = b.time.chars ∧
      offsetChars a.offset = offsetChars b.offset := by
    rw [Time.chars_eq_iff, offsetChars_eq_iff]
    simp [DateTime.shown, and_assoc]
  rw [hshown]
  constructor
  · intro h
    simp only [DateTime.chars, List.append_assoc, List.singleton_append] at h
    have hT : ∀ d : Date, 'T' ∉ d.chars := fun d => d.uses_chars.notMem rfl (by decide)
    obtain ⟨hdate, h⟩ := append_cons_inj (hT a.date) (hT b.date) h
    obtain ⟨htime, hoffset⟩ := List.append_inj h (by rw [Time.length_chars, Time.length_chars])
    exact ⟨Date.chars_inj hdate, htime, hoffset⟩
  · rintro ⟨hdate, htime, hoffset⟩
    rw [DateTime.chars, DateTime.chars, DateTime.clockChars, DateTime.clockChars, hdate, htime,
      hoffset]

end QueryTree.Calendar
