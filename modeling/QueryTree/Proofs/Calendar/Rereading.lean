import QueryTree.Proofs.Calendar.Reading

/-!
# Reading written date-times

The text of a date-time shows its time of day to the millisecond. Of a date-time that can be read
it is read back as the date-time with the rest cut off (`DateTime.read_chars`), and that one has the
same text (`DateTime.chars_toMillis`).
-/

namespace QueryTree.Calendar

open QueryTree.Text

/-! ### Whole milliseconds -/

/-- A time of day with the parts of a millisecond cut off. -/
def Time.toMillis (t : Time) : Time :=
  { t with
    nano := t.nano / 1000000 * 1000000
    nano_lt := by have := t.nano_lt; omega }

/-- A date-time with the parts of a millisecond cut off. -/
def DateTime.toMillis (dt : DateTime) : DateTime := { dt with time := dt.time.toMillis }

/-- A leap second stays one, and nothing else becomes one. -/
theorem Time.leap_toMillis_iff (t : Time) :
    1000000000 ≤ t.toMillis.nano ↔ 1000000000 ≤ t.nano := by
  simp only [Time.toMillis]
  omega

theorem Time.shownSecond_toMillis (t : Time) : t.toMillis.shownSecond = t.shownSecond := by
  simp only [Time.shownSecond, Time.toMillis]
  omega

/-- The milliseconds that are shown make up all that is left of the shown second. -/
theorem Time.shownNano_toMillis (t : Time) :
    t.toMillis.shownNano = t.shownNano / 1000000 * 1000000 := by
  simp only [Time.shownNano, Time.toMillis]
  omega

theorem Time.clock_toMillis (t : Time) : t.toMillis.clock = t.clock := by
  rw [Time.clock, Time.clock, t.shownSecond_toMillis]
  rfl

/-- The cut does not show. -/
theorem Time.chars_toMillis (t : Time) : t.toMillis.chars = t.chars := by
  rw [Time.chars, Time.chars, t.clock_toMillis, t.shownNano_toMillis,
    Nat.mul_div_cancel _ (by decide)]

theorem DateTime.chars_toMillis (dt : DateTime) : dt.toMillis.chars = dt.chars := by
  simp only [DateTime.chars, DateTime.clockChars, DateTime.toMillis, Time.chars_toMillis]

theorem Time.isMidnight_toMillis (t : Time) : t.toMillis.isMidnight = t.isMidnight := by
  simp only [Time.isMidnight, Time.toMillis, Nat.mul_div_cancel _ (show 0 < 1000000 by decide)]

/-! ### Reading -/

/-- An offset of whole minutes is written in full. -/
theorem offsetChars_of_minutes {offset : Int} (h : offset % 60 = 0) :
    offsetChars offset = if offset = 0 then ['Z'] else exactOffsetChars offset := by
  have hwhole : offset.natAbs % 60 = 0 := by omega
  have hround : (offset.natAbs + 30) / 60 = offset.natAbs / 60 := by omega
  rw [offsetChars, exactOffsetChars, if_pos hwhole, List.append_nil, hround]

/-- The text of an offset begins with a letter or a sign. -/
theorem offsetChars_eq_cons (offset : Int) :
    ∃ c cs, offsetChars offset = c :: cs ∧ c.isDigit = false := by
  unfold offsetChars
  split
  · exact ⟨'Z', [], rfl, rfl⟩
  · refine ⟨_, _, rfl, ?_⟩
    split <;> rfl

theorem DateTime.readOffset_offsetChars {dt : DateTime} (h : dt.Readable) :
    readOffset (offsetChars dt.offset) = .ok (dt.offset, []) := by
  rw [offsetChars_of_minutes h.offset_minutes]
  split
  case isTrue hzero =>
    rw [hzero]
    rfl
  case isFalse => exact readOffset_exactOffsetChars h.offset_minutes dt.natAbs_offset_lt

/-- The time of day is read from its text up to the offset, to the millisecond. -/
theorem readFixedTime_chars {t : Time} (hleap : 1000000000 ≤ t.nano → t.second = 59) {c : Char}
    (hc : c.isDigit = false) (rest : List Char) :
    readFixedTime (t.chars ++ c :: rest) = .ok (t.toMillis, c :: rest) := by
  have hchars : t.chars = t.toMillis.clock ++ '.' :: padded 3 (t.shownNano / 1000000) := by
    rw [t.clock_toMillis, Time.chars, List.append_assoc, List.singleton_append]
  have hmilli : t.shownNano / 1000000 < 10 ^ 3 := by
    have : t.shownNano < 1000000000 := Nat.mod_lt _ (by decide)
    omega
  have hnano : t.shownNano / 1000000 * Nat.pow 10 (9 - 3) = t.toMillis.shownNano := by
    rw [t.shownNano_toMillis, Nat.pow_eq]
  have hleap' : 1000000000 ≤ t.toMillis.nano → t.toMillis.second = 59 :=
    fun h => hleap (t.leap_toMillis_iff.mp h)
  rw [hchars]
  exact readFixedTime_fraction hleap' (by decide) (by decide) hmilli hnano hc rest

/-- **The text of a readable date-time is read back** as the date-time to the millisecond. -/
theorem DateTime.read_chars {dt : DateTime} (h : dt.Readable) :
    DateTime.read (String.ofList dt.chars) = .ok dt.toMillis := by
  obtain ⟨c, cs, hcs, hc⟩ := offsetChars_eq_cons dt.offset
  have htime : readFixedTime (dt.time.chars ++ offsetChars dt.offset) =
      .ok (dt.toMillis.time, offsetChars dt.offset) := by
    rw [hcs]
    exact readFixedTime_chars h.leap_second hc cs
  have hyear : 0 ≤ dt.toMillis.date.year ∧ dt.toMillis.date.year ≤ 9999 :=
    ⟨h.year_nonneg, h.year_le⟩
  have hlength : 8 ≤ dt.time.chars.length := by
    rw [Time.length_chars]
    decide
  have hread := DateTime.read_of_parts hyear htime (DateTime.readOffset_offsetChars h) hlength
  rwa [List.append_assoc] at hread

end QueryTree.Calendar
