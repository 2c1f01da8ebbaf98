import QueryTree.Proofs.Calendar.Rereading
import QueryTree.Proofs.Document.Documentable
import QueryTree.Proofs.Literal.NormalForm

/-!
# Dates and date-times as literals

The texts of a date, a calendar and an instant agree: an instant is written as its date, a `T` and
its time of day, and a calendar as the date alone exactly if that time of day is written as midnight
(`dates_agree`). A document that holds these texts gives the literals back, to the millisecond, and
they are written with the same texts again (`dates_reread`).
-/

namespace QueryTree.Literal

open QueryTree.Calendar QueryTree.Text QueryTree.Yaml

/-! ### The texts -/

theorem notMem_dateChars (d : Date) : 'T' ∉ d.chars := d.uses_chars.notMem rfl (by decide)

theorem notMem_clockChars (dt : DateTime) : 'T' ∉ dt.clockChars :=
  dt.uses_clockChars.notMem rfl (by decide)

theorem chars_instant (dt : DateTime) :
    (instant dt).chars = dt.date.chars ++ 'T' :: dt.clockChars := by
  rw [chars, DateTime.chars, List.append_assoc, List.singleton_append]

theorem chars_calendar (dt : DateTime) :
    (calendar dt).chars =
      if dt.time.isMidnight then (date dt.date).chars else (instant dt).chars := rfl

/-- Only a calendar that is written as its date has no `T` in its text. -/
theorem mem_calendar_iff (dt : DateTime) :
    'T' ∈ (calendar dt).encode.toList ↔ dt.time.isMidnight = false := by
  rw [encode, String.toList_ofList, chars_calendar]
  cases dt.time.isMidnight
  · simp [chars_instant]
  · simpa [chars] using notMem_dateChars dt.date

/-- A list with one separator is cut there in one way. -/
theorem cut_unique {c : Char} {d r d' r' : List Char} (hd : c ∉ d) (hr : c ∉ r)
    (h : d' ++ c :: r' = d ++ c :: r) : d' = d ∧ r' = r := by
  have hcount := congrArg (List.count c) h
  simp only [List.count_append, List.count_cons_self, List.count_eq_zero_of_not_mem hd,
    List.count_eq_zero_of_not_mem hr] at hcount
  have hd' : c ∉ d' := List.count_eq_zero.mp (by omega)
  exact append_cons_inj hd' hd h

/-! ### Midnight -/

/-- The text of midnight. -/
def midnightChars : List Char := "00:00:00.000".toList

/-- The time of day is judged to be midnight exactly if it is written as midnight. -/
theorem isMidnight_iff_chars (t : Time) : t.isMidnight = true ↔ t.chars = midnightChars := by
  let zero : Time := ⟨0, 0, 0, 0, by decide, by decide, by decide, by decide⟩
  have hzero : midnightChars = zero.chars := by decide
  have hshown : zero.shownSecond = 0 ∧ zero.shownNano / 1000000 = 0 := by decide
  rw [isMidnight_iff, hzero, Time.chars_eq_iff, hshown.1, hshown.2]
  show _ ↔ t.hour = 0 ∧ t.minute = 0 ∧ t.shownSecond = 0 ∧ t.shownNano / 1000000 = 0
  unfold Time.shownSecond Time.shownNano
  omega

/-- What follows the `T` begins with midnight exactly if the time of day is written so. -/
theorem midnightChars_prefix_iff (dt : DateTime) :
    midnightChars <+: dt.clockChars ↔ dt.time.isMidnight = true := by
  have hlength : midnightChars.length = dt.time.chars.length := by
    rw [Time.length_chars]
    rfl
  rw [isMidnight_iff_chars, DateTime.clockChars]
  constructor
  · rintro ⟨rest, h⟩
    exact (List.append_inj h hlength).1.symm
  · intro h
    rw [h]
    exact List.prefix_append _ _

/-- **The three date forms agree**: the text of an instant is cut at its `T` in one way; what stands
before it is the text of the date, and the calendar is written as that alone if what stands behind
it begins with midnight, and otherwise as the instant. Behind the time of day there is nothing but
the offset. -/
theorem dates_agree (dt : DateTime) :
    ∃ d r : List Char, (instant dt).encode = String.ofList (d ++ 'T' :: r) ∧
      (∀ d' r', (instant dt).encode = String.ofList (d' ++ 'T' :: r') → d' = d ∧ r' = r) ∧
      (date dt.date).encode = String.ofList d ∧
      (calendar dt).encode =
        (if midnightChars <+: r then String.ofList d else (instant dt).encode) ∧
      r.drop midnightChars.length = offsetChars dt.offset := by
  refine ⟨dt.date.chars, dt.clockChars, by rw [encode, chars_instant], ?_, rfl, ?_, ?_⟩
  · intro d' r' h
    rw [encode, chars_instant, String.ofList_inj] at h
    exact cut_unique (notMem_dateChars dt.date) (notMem_clockChars dt) h.symm
  · rw [encode, chars_calendar]
    split
    case isTrue h => rw [if_pos ((midnightChars_prefix_iff dt).mpr h)]; rfl
    case isFalse h => rw [if_neg (mt (midnightChars_prefix_iff dt).mp h)]; rfl
  · exact List.drop_left' dt.time.length_chars

-- a leap second of the first minute is no midnight
example : ((DateTime.read "1999-12-31T00:00:60.0004+01:00").toOption.map fun dt =>
    (calendar dt).encode) = some "1999-12-31T00:00:60.000+01:00" := by
  decide +kernel

/-! ### Reading the texts -/

/-- A date-time is read from a text under the name of a kind. -/
theorem map_dateTimeOf_eq_ok_iff {part : NodePart} {make : DateTime → Literal}
    (hmake : Function.Injective make) {s : String} {dt : DateTime} :
    (dateTimeOf part (.text s)).map make = .ok (make dt) ↔ DateTime.read s = .ok dt := by
  rw [map_eq_ok_iff]
  constructor
  · rintro ⟨dt', h, hdt⟩
    obtain ⟨s', hs, hread⟩ := dateTimeOf_eq_ok_iff.mp h
    cases hs
    rwa [← hmake hdt]
  · exact fun h => ⟨dt, dateTimeOf_eq_ok_iff.mpr ⟨s, rfl, h⟩, rfl⟩

theorem ofValue_instant_eq_ok_iff {s : String} {dt : DateTime} :
    ofValue (typed "instant" (.text s)) = .ok (instant dt) ↔ DateTime.read s = .ok dt :=
  map_dateTimeOf_eq_ok_iff fun _ _ => instant.inj

theorem ofValue_calendar_eq_ok_iff {s : String} {dt : DateTime} :
    ofValue (typed "calendar" (.text s)) = .ok (calendar dt) ↔ DateTime.read s = .ok dt :=
  map_dateTimeOf_eq_ok_iff fun _ _ => calendar.inj

theorem ofValue_date (d : Date) : ofValue (typed "date" (.text (date d).encode)) = .ok (date d) :=
  ofTyped_eq_ok_iff.mpr (.date rfl d.read_chars)

/-- The text of a date-time is read, under the name of its kind, as the date-time with the parts of
a millisecond cut off; that one is a leap second if the first one is, and has the same text. -/
structure Rereads (kind : String) (make : DateTime → Literal) (dt : DateTime) : Prop where
  read : ofValue (typed kind (.text (make dt).encode)) = .ok (make dt.toMillis)
  leap : 1000000000 ≤ dt.toMillis.time.nano ↔ 1000000000 ≤ dt.time.nano
  encode : (make dt.toMillis).encode = (make dt).encode

theorem rereads_instant {dt : DateTime} (h : dt.Readable) : Rereads "instant" instant dt where
  read := ofValue_instant_eq_ok_iff.mpr (DateTime.read_chars h)
  leap := dt.time.leap_toMillis_iff
  encode := congrArg String.ofList dt.chars_toMillis

theorem rereads_calendar {dt : DateTime} (h : dt.Readable)
    (hmidnight : dt.time.isMidnight = false) : Rereads "calendar" calendar dt where
  read := by
    have hchars : (calendar dt).chars = dt.chars := by rw [chars_calendar, hmidnight]; rfl
    rw [Literal.encode, hchars]
    exact ofValue_calendar_eq_ok_iff.mpr (DateTime.read_chars h)
  leap := dt.time.leap_toMillis_iff
  encode := by
    have hsame : dt.toMillis.time.isMidnight = dt.time.isMidnight := dt.time.isMidnight_toMillis
    rw [Literal.encode, Literal.encode, chars_calendar, chars_calendar, hsame, hmidnight]
    exact congrArg String.ofList dt.chars_toMillis

/-- **Written dates are read back**: the text of an instant that was read, and of a calendar that
was read and is not written as a date, is read as the same date-time to the millisecond; a calendar
that is written as a date is read as that date, under the name of dates; and every date is read back
from its text. All of these have the same text again. -/
theorem dates_reread :
    (∀ s dt, ofValue (typed "instant" (.text s)) = .ok (instant dt) →
      Rereads "instant" instant dt) ∧
    (∀ s dt, ofValue (typed "calendar" (.text s)) = .ok (calendar dt) →
      if 'T' ∈ (calendar dt).encode.toList then Rereads "calendar" calendar dt
      else ofValue (typed "date" (.text (calendar dt).encode)) = .ok (date dt.date) ∧
        (date dt.date).encode = (calendar dt).encode) ∧
    ∀ d, ofValue (typed "date" (.text (date d).encode)) = .ok (date d) := by
  refine ⟨?_, ?_, ofValue_date⟩
  · intro s dt h
    exact rereads_instant (DateTime.readable_of_read (ofValue_instant_eq_ok_iff.mp h))
  · intro s dt h
    have hreadable := DateTime.readable_of_read (ofValue_calendar_eq_ok_iff.mp h)
    split
    case isTrue hT => exact rereads_calendar hreadable ((mem_calendar_iff dt).mp hT)
    case isFalse hT =>
      have hmidnight : dt.time.isMidnight = true := by
        simpa using mt (mem_calendar_iff dt).mpr hT
      have htext : (date dt.date).encode = (calendar dt).encode := by
        rw [encode, encode, chars_calendar, hmidnight]
        rfl
      exact ⟨htext ▸ ofValue_date dt.date, htext⟩

/-- A leap second with lower case letters and more digits than are kept. -/
theorem dates_reread_of_leap_second :
    ∃ dt, ofValue (typed "instant" (.text "1998-12-31t23:59:60.9876543z")) = .ok (instant dt) ∧
      (instant dt).encode = "1998-12-31T23:59:60.987Z" ∧ Rereads "instant" instant dt := by
  let dt : DateTime :=
    { date := ⟨1998, 12, 31, by decide⟩
      time := ⟨23, 59, 59, 1987654300, by decide, by decide, by decide, by decide⟩
      offset := 0
      lt_offset := by decide
      offset_lt := by decide }
  have hread : DateTime.read "1998-12-31t23:59:60.9876543z" = .ok dt := by rfl
  have hvalue := ofValue_instant_eq_ok_iff.mpr hread
  exact ⟨dt, hvalue, by decide +kernel, dates_reread.1 _ dt hvalue⟩

end QueryTree.Literal
