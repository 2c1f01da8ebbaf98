import Mathlib.Data.List.Basic
import QueryTree.Calendar.Reading
import QueryTree.Proofs.Calendar.Writing
import QueryTree.Proofs.Outcome

/-!
# Reading dates and date-times back

Every date is read back from its text (`Date.read_chars`). The date-times that can be read are those
with a year of four digits, an offset of whole minutes, and a leap second in second 59 only: the
exact text of such a date-time is read back (`DateTime.read_exactChars`), and the reader makes no
others (`DateTime.readable_of_read`).
-/

namespace QueryTree.Calendar

open QueryTree.Text

/-! ### Numbers -/

theorem isSpace_of_isDigit {c : Char} (h : c.isDigit = true) : isSpace c = false := by
  simp only [Char.isDigit, Bool.and_eq_true, decide_eq_true_eq] at h
  have hlow : 48 ≤ c.toNat := h.1
  have hhigh : c.toNat ≤ 57 := h.2
  simp only [isSpace]
  grind

theorem dropLeading_cons {c : Char} (h : isSpace c = false) (cs : List Char) :
    dropLeading (c :: cs) = c :: cs := by
  rw [dropLeading, List.dropWhile_cons, h]
  rfl

theorem readChar_cons (c : Char) (cs : List Char) : readChar c (c :: cs) = .ok ((), cs) :=
  if_pos rfl

theorem readOneOf_cons {allowed : List Char} {c : Char} (h : allowed.contains c = true)
    (cs : List Char) : readOneOf allowed (c :: cs) = .ok ((), cs) :=
  if_pos h

/-- What follows a number: nothing, or something that is no digit. -/
abbrev Follows (cs : List Char) : Prop := Stops (fun c => !c.isDigit) cs

theorem takeWhile_isDigit_append {ds rest : List Char} (hds : ∀ c ∈ ds, c.isDigit = true)
    (hrest : Follows rest) : (ds ++ rest).takeWhile Char.isDigit = ds := by
  rw [List.takeWhile_append_of_pos hds]
  cases rest with
  | nil => simp
  | cons c rest =>
    have hc : c.isDigit = false := by simpa using hrest c rfl
    rw [List.takeWhile_cons, hc]
    simp

/-- Digits are read as their number up to where they end. -/
theorem readNumber_append (width : Option Nat) {ds rest : List Char}
    (hds : ∀ c ∈ ds, c.isDigit = true) (hne : ds ≠ []) (hrest : Follows rest)
    (hwidth : ∀ n, width = some n → ds.length ≤ n) :
    readNumber width (ds ++ rest) = .ok (decimalValue ds, rest) := by
  have htake := takeWhile_isDigit_append hds hrest
  cases width with
  | none => simp [readNumber, htake, hne]
  | some n => simp [readNumber, htake, List.take_of_length_le (hwidth n rfl), hne]

/-- A field of a fixed width is read as its number. -/
theorem readDigits_append {n : Nat} {ds rest : List Char} (hds : ∀ c ∈ ds, c.isDigit = true)
    (hlength : ds.length = n) : readDigits n (ds ++ rest) = .ok (decimalValue ds, rest) := by
  subst hlength
  unfold readDigits
  simp only [List.take_left, List.drop_left]
  rw [if_pos ⟨trivial, List.all_eq_true.mpr hds⟩]

theorem readDigits_padded {w n : Nat} (hw : 0 < w) (hn : n < 10 ^ w) (rest : List Char) :
    readDigits w (padded w n ++ rest) = .ok (n, rest) := by
  rw [readDigits_append (fun c => isDigit_of_mem_padded) (length_padded hw hn),
    decimalValue_padded]

theorem dropLeading_padded (w n : Nat) (rest : List Char) :
    dropLeading (padded w n ++ rest) = padded w n ++ rest := by
  obtain ⟨c, cs, hcs⟩ := List.exists_cons_of_ne_nil (padded_ne_nil w n)
  have hc : c.isDigit = true := isDigit_of_mem_padded (hcs ▸ List.mem_cons_self ..)
  rw [hcs, List.cons_append, dropLeading_cons (isSpace_of_isDigit hc)]

theorem readNumber_padded {width : Option Nat} {w n : Nat} {rest : List Char}
    (hrest : Follows rest) (hwidth : ∀ k, width = some k → (padded w n).length ≤ k) :
    readNumber width (padded w n ++ rest) = .ok (n, rest) := by
  rw [readNumber_append width (fun c => isDigit_of_mem_padded) (padded_ne_nil w n) hrest hwidth,
    decimalValue_padded]

/-- A number of two digits is read from its field. -/
theorem readPair_padded {n : Nat} (hn : n < 100) {rest : List Char} (hrest : Follows rest) :
    readPair (padded 2 n ++ rest) = .ok ((n : Int), rest) := by
  have hread : readNumber (some 2) (padded 2 n ++ rest) = .ok (n, rest) := by
    apply readNumber_padded hrest
    rintro _ ⟨⟩
    exact Nat.le_of_eq (length_padded (by decide) hn)
  rw [readPair, dropLeading_padded, hread]
  rfl

/-! ### Dates -/

/-- A year is read from its text. -/
theorem readYear_yearChars (year : Int) {rest : List Char} (hrest : Follows rest) :
    readYear (yearChars year ++ rest) = .ok (year, rest) := by
  unfold yearChars readYear
  by_cases hfour : 0 ≤ year ∧ year ≤ 9999
  · have hread : readNumber (some 4) (padded 4 year.natAbs ++ rest) = .ok (year.natAbs, rest) := by
      apply readNumber_padded hrest
      rintro _ ⟨⟩
      exact Nat.le_of_eq (length_padded (by decide) (by omega))
    -- no digit is a sign
    have hsign : ∀ {c cs}, c.isDigit = false → padded 4 year.natAbs ++ rest ≠ c :: cs := by
      intro c cs hc heq
      obtain ⟨d, ds, hds⟩ := List.exists_cons_of_ne_nil (padded_ne_nil 4 year.natAbs)
      have hd : d.isDigit = true := isDigit_of_mem_padded (hds ▸ List.mem_cons_self ..)
      rw [hds] at heq
      cases heq
      rw [hd] at hc
      cases hc
    rw [if_pos hfour, dropLeading_padded]
    split
    case h_1 heq => exact absurd heq (hsign rfl)
    case h_2 heq => exact absurd heq (hsign rfl)
    case h_3 =>
      simp only [hread, ok_bind]
      rw [Int.natAbs_of_nonneg hfour.1]
  · have hread : readNumber none (padded 4 year.natAbs ++ rest) = .ok (year.natAbs, rest) :=
      readNumber_padded hrest (by rintro _ ⟨⟩)
    rw [if_neg hfour]
    by_cases hneg : year < 0
    · rw [if_pos hneg, List.cons_append, dropLeading_cons (by decide)]
      simp only [hread, ok_bind]
      rw [Int.ofNat_natAbs_of_nonpos (by omega), Int.neg_neg]
    · rw [if_neg hneg, List.cons_append, dropLeading_cons (by decide)]
      simp only [hread, ok_bind]
      rw [Int.natAbs_of_nonneg (by omega)]

theorem readWithin_of_read {least greatest n : Int} {read : Reader Int} {cs rest : List Char}
    (h : read cs = .ok (n, rest)) (hn : least ≤ n ∧ n ≤ greatest) :
    readWithin least greatest read cs = .ok (n, rest) := by
  rw [readWithin, h]
  show (if least ≤ n ∧ n ≤ greatest then _ else _) = _
  rw [if_pos hn]

theorem follows_cons {c : Char} (h : c.isDigit = false) (cs : List Char) : Follows (c :: cs) :=
  stops_cons (by simpa using h) cs

theorem readDateFields_chars (d : Date) :
    readDateFields d.chars = .ok ((d.year, (d.month : Int), (d.day : Int)), []) := by
  have hd := d.exists_day
  unfold IsDate at hd
  have hmin : Int32.minValue.toInt = -2147483648 := rfl
  have hmax : Int32.maxValue.toInt = 2147483647 := rfl
  have := daysIn_le d.year d.month
  have hyear : ∀ cs, readWithin Int32.minValue.toInt Int32.maxValue.toInt readYear
      (yearChars d.year ++ '-' :: cs) = .ok (d.year, '-' :: cs) := fun cs =>
    readWithin_of_read (readYear_yearChars d.year (follows_cons rfl cs)) (by omega)
  have hmonth : ∀ cs, readWithin 1 12 readPair (padded 2 d.month ++ '-' :: cs) =
      .ok ((d.month : Int), '-' :: cs) := fun cs =>
    readWithin_of_read (readPair_padded d.month_lt (follows_cons rfl cs)) (by omega)
  have hday : readWithin 1 31 readPair (padded 2 d.day) = .ok ((d.day : Int), []) := by
    rw [← List.append_nil (padded 2 d.day)]
    exact readWithin_of_read (readPair_padded d.day_lt stops_nil) (by omega)
  simp only [Date.chars, List.append_assoc, List.cons_append, List.nil_append]
  simp only [readDateFields, hyear, ok_bind, readChar_cons, hmonth, hday]

/-- **A date is read back from its text.** -/
theorem Date.read_chars (d : Date) : Date.read (String.ofList d.chars) = .ok d := by
  have hfields : readAll readDateFields (String.ofList d.chars).toList =
      .ok (d.year, (d.month : Int), (d.day : Int)) := by
    rw [String.toList_ofList, readAll, readDateFields_chars]
    rfl
  rw [Date.read, hfields, ok_bind]
  simp only [Int.toNat_natCast, Date.of?, dif_pos d.exists_day]

/-! ### Reading the text of a date-time -/

theorem readFixedDate_chars {d : Date} (hyear : 0 ≤ d.year ∧ d.year ≤ 9999) (rest : List Char) :
    readFixedDate (d.chars ++ rest) = .ok (d, rest) := by
  have hfour : ((d.year.natAbs : Nat) : Int) = d.year := Int.natAbs_of_nonneg hyear.1
  have hread : ∀ cs, readDigits 4 (yearChars d.year ++ cs) = .ok (d.year.natAbs, cs) := by
    rw [yearChars, if_pos hyear]
    exact readDigits_padded (by decide) (by omega)
  have hmonth : ∀ cs, readDigits 2 (padded 2 d.month ++ cs) = .ok (d.month, cs) :=
    readDigits_padded (by decide) d.month_lt
  have hday : ∀ cs, readDigits 2 (padded 2 d.day ++ cs) = .ok (d.day, cs) :=
    readDigits_padded (by decide) d.day_lt
  simp only [Date.chars, List.append_assoc, List.cons_append, List.nil_append]
  simp (disch := decide) only [readFixedDate, hread, ok_bind, readOneOf_cons, hmonth, hday, hfour,
    Date.of?, dif_pos d.exists_day]

/-- A fraction of up to nine digits is read as its nanoseconds. -/
theorem readFraction_padded {w n : Nat} (hw : 0 < w) (hw' : w ≤ 9) (hn : n < 10 ^ w)
    {rest : List Char} (hrest : Follows rest) :
    readFraction (padded w n ++ rest) = .ok (n * Nat.pow 10 (9 - w), rest) := by
  have hlength := length_padded hw hn
  have hread : readNumber (some 9) (padded w n ++ rest) = .ok (n, rest) := by
    apply readNumber_padded hrest
    rintro _ ⟨⟩
    omega
  have hrun := takeWhile_isDigit_append (fun c => isDigit_of_mem_padded (w := w) (n := n)) hrest
  have hdrop : (padded w n ++ rest).drop w = rest := List.drop_left' hlength
  simp only [readFraction, hread, ok_bind, hrun, hlength, hdrop]

/-- The exact text of a time of day is its clock alone, or with a fraction that makes up its
nanoseconds. -/
theorem Time.exactChars_cases (t : Time) :
    (t.exactChars = t.clock ∧ t.shownNano = 0) ∨
      ∃ w n, 0 < w ∧ w ≤ 9 ∧ n < 10 ^ w ∧ t.exactChars = t.clock ++ '.' :: padded w n ∧
        n * Nat.pow 10 (9 - w) = t.shownNano := by
  have hnano : t.shownNano < 1000000000 := Nat.mod_lt _ (by decide)
  unfold Time.exactChars
  split
  · exact Or.inl ⟨List.append_nil _, ‹_›⟩
  · right
    split
    · exact ⟨3, _, by decide, by decide, by omega, rfl, by simp only [Nat.pow_eq]; omega⟩
    · split
      · exact ⟨6, _, by decide, by decide, by omega, rfl, by simp only [Nat.pow_eq]; omega⟩
      · exact ⟨9, _, by decide, by decide, hnano, rfl, Nat.mul_one _⟩

theorem Time.of?_eq (t : Time) : Time.of? t.hour t.minute t.second t.nano = some t :=
  dif_pos ⟨t.hour_lt, t.minute_lt, t.second_lt, t.nano_lt⟩

/-- A time of day is the one with the fields it shows, where a shown second 60 is a leap second. -/
theorem Time.of?_shown {t : Time} (hleap : 1000000000 ≤ t.nano → t.second = 59) :
    (if t.shownSecond = 60 then Time.of? t.hour t.minute 59 (1000000000 + t.shownNano)
      else Time.of? t.hour t.minute t.shownSecond t.shownNano) = some t := by
  have hnano := t.nano_lt
  have hsecond := t.second_lt
  by_cases h : 1000000000 ≤ t.nano
  · have h59 := hleap h
    have hs : t.shownSecond = 60 := by unfold Time.shownSecond; omega
    have hn : 1000000000 + t.shownNano = t.nano := by unfold Time.shownNano; omega
    rw [if_pos hs, hn, ← h59, Time.of?_eq]
  · have hs : t.shownSecond = t.second := by unfold Time.shownSecond; omega
    have hn : t.shownNano = t.nano := by unfold Time.shownNano; omega
    rw [hs, if_neg (by omega), hn, Time.of?_eq]

/-- A clock with a fraction that makes up the nanoseconds is read up to the sign of the offset, if a
leap second is in second 59. -/
theorem readFixedTime_fraction {t : Time} (hleap : 1000000000 ≤ t.nano → t.second = 59) {w n : Nat}
    (hw : 0 < w) (hw' : w ≤ 9) (hn : n < 10 ^ w) (hnano : n * Nat.pow 10 (9 - w) = t.shownNano)
    {c : Char} (hc : c.isDigit = false) (rest : List Char) :
    readFixedTime (t.clock ++ '.' :: padded w n ++ c :: rest) = .ok (t, c :: rest) := by
  have hhour : ∀ cs, readDigits 2 (padded 2 t.hour ++ cs) = .ok (t.hour, cs) :=
    readDigits_padded (by decide) (by have := t.hour_lt; omega)
  have hminute : ∀ cs, readDigits 2 (padded 2 t.minute ++ cs) = .ok (t.minute, cs) :=
    readDigits_padded (by decide) (by have := t.minute_lt; omega)
  have hsecond : ∀ cs, readDigits 2 (padded 2 t.shownSecond ++ cs) = .ok (t.shownSecond, cs) :=
    readDigits_padded (by decide) t.shownSecond_lt
  have hread := readFraction_padded hw hw' hn (follows_cons hc rest)
  have htime := Time.of?_shown hleap
  simp only [Time.clock, List.append_assoc, List.cons_append, List.nil_append]
  simp (disch := decide) only [readFixedTime, hhour, hminute, hsecond, ok_bind, readOneOf_cons,
    hread, hnano, htime]

/-- The time of day is read back up to the sign of the offset, if a leap second is in second 59. -/
theorem readFixedTime_exactChars {t : Time} (hleap : 1000000000 ≤ t.nano → t.second = 59)
    {c : Char} (hc : c.isDigit = false) (hpoint : c ≠ '.') (rest : List Char) :
    readFixedTime (t.exactChars ++ c :: rest) = .ok (t, c :: rest) := by
  rcases t.exactChars_cases with ⟨hchars, hnano⟩ | ⟨w, n, hw, hw', hn, hchars, hnano⟩
  · have hhour : ∀ cs, readDigits 2 (padded 2 t.hour ++ cs) = .ok (t.hour, cs) :=
      readDigits_padded (by decide) (by have := t.hour_lt; omega)
    have hminute : ∀ cs, readDigits 2 (padded 2 t.minute ++ cs) = .ok (t.minute, cs) :=
      readDigits_padded (by decide) (by have := t.minute_lt; omega)
    have hsecond : ∀ cs, readDigits 2 (padded 2 t.shownSecond ++ cs) = .ok (t.shownSecond, cs) :=
      readDigits_padded (by decide) t.shownSecond_lt
    have htime := Time.of?_shown hleap
    simp only [hchars, Time.clock, List.append_assoc, List.cons_append, List.nil_append]
    simp (disch := decide) only [readFixedTime, hhour, hminute, hsecond, ok_bind, readOneOf_cons]
    split
    case h_1 heq => exact absurd (List.cons.inj heq).1 hpoint
    case h_2 =>
      rw [hnano] at htime
      simp only [htime]
  · rw [hchars]
    exact readFixedTime_fraction hleap hw hw' hn hnano hc rest

theorem readOffsetPair_padded {n : Nat} (hn : n < 100) (rest : List Char) :
    readOffsetPair (padded 2 n ++ rest) = .ok (n, rest) := by
  have hdigits : ∀ c ∈ padded 2 n, c.isDigit = true := fun c => isDigit_of_mem_padded
  obtain ⟨a, b, hab⟩ := List.length_eq_two.mp (length_padded (w := 2) (by decide) hn)
  have hvalue : decimalValue [a, b] = n := by rw [← hab, decimalValue_padded]
  rw [hab] at hdigits ⊢
  have ha := hdigits a (by simp)
  have hb := hdigits b (by simp)
  simp [readOffsetPair, ha, hb, hvalue]

theorem readSign_cons (negative : Bool) (cs : List Char) :
    readSign ((if negative then '-' else '+') :: cs) = .ok (negative, cs) := by
  cases negative <;> rfl

theorem readOffset_signedMinutes (negative : Bool) {minutes : Nat} (h : minutes < 6000) :
    readOffset (signedMinutes negative minutes) =
      .ok (if negative then -(minutes * 60 : Int) else minutes * 60, []) := by
  have hhours : ∀ cs, readOffsetPair (padded 2 (minutes / 60) ++ cs) = .ok (minutes / 60, cs) :=
    readOffsetPair_padded (by omega)
  have hminutes : readOffsetPair (padded 2 (minutes % 60)) = .ok (minutes % 60, []) := by
    rw [← List.append_nil (padded 2 (minutes % 60))]
    exact readOffsetPair_padded (by omega) []
  have hseconds : ((minutes / 60 : Nat) : Int) * 3600 + ((minutes % 60 : Nat) : Int) * 60 =
      minutes * 60 := by omega
  simp only [signedMinutes, List.append_assoc, List.cons_append, List.nil_append]
  unfold readOffset
  split
  case h_1 heq => cases negative <;> simp at heq
  case h_2 heq => cases negative <;> simp at heq
  case h_3 =>
    simp only [readSign_cons, ok_bind, hhours, readChar_cons, hminutes]
    rw [if_neg (by omega), hseconds]

/-- An offset of whole minutes and less than a hundred hours is read back. -/
theorem readOffset_exactOffsetChars {offset : Int} (hminutes : offset % 60 = 0)
    (hbound : offset.natAbs < 360000) :
    readOffset (exactOffsetChars offset) = .ok (offset, []) := by
  have hwhole : offset.natAbs % 60 = 0 := by omega
  rw [exactOffsetChars, if_pos hwhole, List.append_nil, readOffset_signedMinutes _ (by omega)]
  by_cases hneg : offset < 0
  · simp only [hneg, decide_true, if_true]
    rw [show -((offset.natAbs / 60 : Nat) * 60 : Int) = offset by omega]
  · simp only [hneg, decide_false, Bool.false_eq_true, if_false]
    rw [show ((offset.natAbs / 60 : Nat) * 60 : Int) = offset by omega]

/-- What a date-time needs to be read: a year of four digits, an offset of whole minutes, and a leap
second in second 59 only. -/
structure DateTime.Readable (dt : DateTime) : Prop where
  year_nonneg : 0 ≤ dt.date.year
  year_le : dt.date.year ≤ 9999
  offset_minutes : dt.offset % 60 = 0
  leap_second : 1000000000 ≤ dt.time.nano → dt.time.second = 59

theorem length_le_utf8ByteSize (cs : List Char) : cs.length ≤ (String.ofList cs).utf8ByteSize := by
  induction cs with
  | nil => exact Nat.zero_le _
  | cons c cs ih =>
    rw [String.ofList_cons, String.utf8ByteSize_append, String.utf8ByteSize_singleton,
      List.length_cons]
    have := c.utf8Size_pos
    omega

/-- The text of a date with a year of four digits. -/
theorem Date.length_chars {d : Date} (hyear : 0 ≤ d.year ∧ d.year ≤ 9999) :
    d.chars.length = 10 := by
  have hyear : (yearChars d.year).length = 4 := by
    rw [yearChars, if_pos hyear]
    exact length_padded (by decide) (by omega)
  have hmonth : (padded 2 d.month).length = 2 := length_padded (by decide) d.month_lt
  have hday : (padded 2 d.day).length = 2 := length_padded (by decide) d.day_lt
  simp only [Date.chars, List.length_append, hyear, hmonth, hday, List.length_singleton]

/-- A date-time is read from the text of its date, a text for its time of day that is read up to
the offset, and a text for its offset. -/
theorem DateTime.read_of_parts {dt : DateTime} (hyear : 0 ≤ dt.date.year ∧ dt.date.year ≤ 9999)
    {time offset : List Char} (htime : readFixedTime (time ++ offset) = .ok (dt.time, offset))
    (hoffset : readOffset offset = .ok (dt.offset, [])) (hlength : 8 ≤ time.length) :
    DateTime.read (String.ofList (dt.date.chars ++ ['T'] ++ time ++ offset)) = .ok dt := by
  have hdate : ∀ cs, readFixedDate (dt.date.chars ++ cs) = .ok (dt.date, cs) :=
    readFixedDate_chars hyear
  have hfields : readAll readDateTimeFields
      (String.ofList (dt.date.chars ++ ['T'] ++ time ++ offset)).toList =
      .ok (dt.date, dt.time, dt.offset) := by
    rw [String.toList_ofList, readAll, List.append_assoc, List.append_assoc, List.singleton_append]
    simp (disch := decide) only [readDateTimeFields, hdate, ok_bind, readOneOf_cons, htime, hoffset]
    rfl
  have hbytes : 19 ≤ (String.ofList (dt.date.chars ++ ['T'] ++ time ++ offset)).utf8ByteSize := by
    refine Nat.le_trans ?_ (length_le_utf8ByteSize _)
    simp only [List.length_append, Date.length_chars hyear, List.length_singleton]
    omega
  rw [DateTime.read, if_neg (Nat.not_lt.mpr hbytes), hfields, ok_bind]
  simp only [DateTime.of?, dif_pos (And.intro dt.lt_offset dt.offset_lt)]

/-- An offset is less than a hundred hours. -/
theorem DateTime.natAbs_offset_lt (dt : DateTime) : dt.offset.natAbs < 360000 := by
  have := dt.lt_offset
  have := dt.offset_lt
  omega

/-- **A readable date-time is read back from its exact text.** -/
theorem DateTime.read_exactChars {dt : DateTime} (h : dt.Readable) :
    DateTime.read (String.ofList dt.exactChars) = .ok dt := by
  have hoffset : readOffset (exactOffsetChars dt.offset) = .ok (dt.offset, []) :=
    readOffset_exactOffsetChars h.offset_minutes dt.natAbs_offset_lt
  obtain ⟨c, cs, hcs, hc, hpoint⟩ : ∃ c cs, exactOffsetChars dt.offset = c :: cs ∧
      c.isDigit = false ∧ c ≠ '.' := by
    refine ⟨_, _, rfl, ?_, ?_⟩ <;> split <;> decide
  refine DateTime.read_of_parts ⟨h.year_nonneg, h.year_le⟩ ?_ hoffset ?_
  · rw [hcs]
    exact readFixedTime_exactChars h.leap_second hc hpoint cs
  · rw [Time.exactChars, List.length_append, Time.length_clock]
    omega

/-! ### What is read -/

theorem readDigits_lt {w n : Nat} {cs rest : List Char} (h : readDigits w cs = .ok (n, rest)) :
    n < 10 ^ w := by
  unfold readDigits at h
  simp only at h
  split at h
  case isFalse => cases h
  case isTrue hdigits =>
    obtain ⟨rfl, -⟩ := Prod.mk.inj (Except.ok.inj h)
    have hlt := decimalValue_lt (List.all_eq_true.mp hdigits.2)
    rwa [hdigits.1] at hlt

theorem value_of_readNumber {w n : Nat} {cs rest : List Char}
    (h : readNumber (some w) cs = .ok (n, rest)) :
    n = decimalValue ((cs.takeWhile Char.isDigit).take w) := by
  unfold readNumber at h
  simp only at h
  split at h
  · cases h
  · split at h
    · cases h
    · exact (Prod.mk.inj (Except.ok.inj h)).1.symm

/-- A fraction makes less than a second, however many digits it has. -/
theorem readFraction_lt {n : Nat} {cs rest : List Char} (h : readFraction cs = .ok (n, rest)) :
    n < 1000000000 := by
  simp only [readFraction, bind_eq_ok_iff, Prod.exists] at h
  obtain ⟨k, _, hk, h⟩ := h
  obtain ⟨rfl, -⟩ := Prod.mk.inj (Except.ok.inj h)
  have hlt : decimalValue ((cs.takeWhile Char.isDigit).take 9) <
      10 ^ ((cs.takeWhile Char.isDigit).take 9).length :=
    decimalValue_lt fun c hc => List.all_eq_true.mp List.all_takeWhile c (List.mem_of_mem_take hc)
  rw [← value_of_readNumber hk, List.length_take] at hlt
  generalize (cs.takeWhile Char.isDigit).length = len at hlt ⊢
  by_cases hlen : len ≤ 9
  · rw [Nat.min_eq_right hlen] at hlt
    calc _ < 10 ^ len * 10 ^ (9 - len) := Nat.mul_lt_mul_of_pos_right hlt (Nat.pow_pos (by decide))
      _ = 1000000000 := by rw [← Nat.pow_add, Nat.add_sub_cancel' hlen]
  · rw [Nat.min_eq_left (by omega)] at hlt
    rw [Nat.sub_eq_zero_of_le (by omega), Nat.pow_eq, Nat.pow_zero, Nat.mul_one]
    exact hlt

theorem Date.year_of_of? {year : Int} {month day : Nat} {d : Date}
    (h : Date.of? year month day = some d) : d.year = year := by
  unfold Date.of? at h
  split at h
  · cases h
    rfl
  · cases h

theorem readFixedDate_year {d : Date} {cs rest : List Char}
    (h : readFixedDate cs = .ok (d, rest)) : 0 ≤ d.year ∧ d.year ≤ 9999 := by
  simp only [readFixedDate, bind_eq_ok_iff, Prod.exists] at h
  obtain ⟨year, _, hyear, _, _, -, month, _, -, _, _, -, day, _, -, h⟩ := h
  have := readDigits_lt hyear
  split at h
  case h_1 hdate =>
    obtain ⟨rfl, -⟩ := Prod.mk.inj (Except.ok.inj h)
    rw [Date.year_of_of? hdate]
    omega
  case h_2 => cases h

theorem Time.fields_of_of? {hour minute second nano : Nat} {t : Time}
    (h : Time.of? hour minute second nano = some t) : t.second = second ∧ t.nano = nano := by
  unfold Time.of? at h
  split at h
  · cases h
    exact ⟨rfl, rfl⟩
  · cases h

/-- Only second 60 makes a leap second. -/
theorem Time.leap_of_of? {hour minute second nano : Nat} (hnano : nano < 1000000000) {t : Time}
    (h : (if second = 60 then Time.of? hour minute 59 (1000000000 + nano)
      else Time.of? hour minute second nano) = some t) :
    1000000000 ≤ t.nano → t.second = 59 := by
  intro hleap
  split at h
  · exact (Time.fields_of_of? h).1
  · have := (Time.fields_of_of? h).2
    omega

theorem readFixedTime_leap {t : Time} {cs rest : List Char}
    (h : readFixedTime cs = .ok (t, rest)) : 1000000000 ≤ t.nano → t.second = 59 := by
  simp only [readFixedTime, bind_eq_ok_iff, Prod.exists] at h
  obtain ⟨hour, _, -, _, _, -, minute, _, -, _, _, -, second, after, -, h⟩ := h
  split at h
  case h_1 fraction =>
    obtain ⟨⟨nano, _⟩, hnano, h⟩ := bind_eq_ok_iff.mp h
    simp only at h
    split at h
    case h_1 htime =>
      obtain ⟨rfl, -⟩ := Prod.mk.inj (Except.ok.inj h)
      exact Time.leap_of_of? (readFraction_lt hnano) htime
    case h_2 => cases h
  case h_2 =>
    simp only [ok_bind] at h
    split at h
    case h_1 htime =>
      obtain ⟨rfl, -⟩ := Prod.mk.inj (Except.ok.inj h)
      exact Time.leap_of_of? (by decide) htime
    case h_2 => cases h

theorem readOffset_minutes {offset : Int} {cs rest : List Char}
    (h : readOffset cs = .ok (offset, rest)) : offset % 60 = 0 := by
  unfold readOffset at h
  split at h
  case h_1 =>
    cases h
    rfl
  case h_2 =>
    cases h
    rfl
  case h_3 =>
    simp only [bind_eq_ok_iff, Prod.exists] at h
    obtain ⟨negative, _, -, hours, _, -, _, _, -, minutes, _, -, h⟩ := h
    split at h
    · cases h
    · obtain ⟨rfl, -⟩ := Prod.mk.inj (Except.ok.inj h)
      split <;> omega

theorem DateTime.fields_of_of? {date : Date} {time : Time} {offset : Int} {dt : DateTime}
    (h : DateTime.of? date time offset = some dt) :
    dt.date = date ∧ dt.time = time ∧ dt.offset = offset := by
  unfold DateTime.of? at h
  split at h
  · cases h
    exact ⟨rfl, rfl, rfl⟩
  · cases h

/-- **Nothing else is read** than a year of four digits, an offset of whole minutes, and a leap
second in second 59 only. -/
theorem DateTime.readable_of_read {s : String} {dt : DateTime} (h : DateTime.read s = .ok dt) :
    dt.Readable := by
  unfold DateTime.read at h
  split at h
  case isTrue => cases h
  case isFalse =>
    simp only [bind_eq_ok_iff, readAll, readDateTimeFields, Prod.exists] at h
    obtain ⟨_, _, _, ⟨_, _, _, _, hfields, hall⟩, h⟩ := h
    obtain ⟨date, _, hdate, _, _, -, time, _, htime, offset, _, hoffset, hparts⟩ := hfields
    cases hparts
    split at hall
    case isFalse => cases hall
    case isTrue =>
      cases hall
      split at h
      case h_1 hdt =>
        cases h
        obtain ⟨rfl, rfl, rfl⟩ := DateTime.fields_of_of? hdt
        obtain ⟨hnonneg, hle⟩ := readFixedDate_year hdate
        exact ⟨hnonneg, hle, readOffset_minutes hoffset, readFixedTime_leap htime⟩
      case h_2 => cases h

-- a leap second and the greatest offset
example : (DateTime.read "1998-12-31T23:59:60.5-23:59").toOption.map (fun dt =>
    (dt.time.second, dt.time.nano, dt.offset)) = some (59, 1500000000, -86340) := by
  decide +kernel

end QueryTree.Calendar
