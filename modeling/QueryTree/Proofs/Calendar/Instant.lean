import Mathlib.Order.Basic
import Mathlib.Tactic.IntervalCases
import QueryTree.Calendar.DateTime

/-!
# Days and instants

The number of a date counts days: no two dates have the same number (`Date.number_inj`), and the
date one day later, where there is one, is the one with the next number (`Date.next?_eq_some_iff`).
So an instant is what its name says. The date-time at offset zero that `DateTime.toUtc?` finds is
the one with the same instant (`DateTime.toUtc?_eq_some_iff`), and at one offset an instant is one
date-time (`DateTime.eq_of_instant`).
-/

namespace QueryTree.Calendar

/-! ### Years that begin with March -/

/-- The days before the first of March of a year. -/
def daysToMarch (year : Int) : Int := 365 * year + year / 4 - year / 100 + year / 400

/-- The days of such a year before one of its months, of which March is month 0. -/
def daysToMonth (month : Nat) : Nat := (153 * month + 2) / 5

/-- The length of the year that begins with March. The February that ends it is that of the next
year. -/
def lengthFromMarch (year : Int) : Nat := if isLeap (year + 1) then 366 else 365

/-- The year that begins with March and contains a month. -/
def marchYear (year : Int) (month : Nat) : Int := if month ≤ 2 then year - 1 else year

/-- The place of a month in such a year. -/
def marchMonth (month : Nat) : Nat := (month + 9) % 12

/-- The number of a day, whether or not it exists. -/
def dayNumber (year : Int) (month day : Nat) : Int :=
  daysToMarch (marchYear year month) + daysToMonth (marchMonth month) + day

theorem daysToMarch_succ (year : Int) :
    daysToMarch (year + 1) = daysToMarch year + lengthFromMarch year := by
  unfold daysToMarch lengthFromMarch isLeap
  simp only [Bool.and_eq_true, Bool.or_eq_true, beq_iff_eq, bne_iff_ne, ne_eq]
  split <;> omega

theorem daysToMarch_mono {a b : Int} (h : a ≤ b) : daysToMarch a ≤ daysToMarch b := by
  unfold daysToMarch
  omega

theorem daysToMonth_mono {m n : Nat} (h : m ≤ n) : daysToMonth m ≤ daysToMonth n := by
  unfold daysToMonth
  omega

/-- After the last day of a month the next one begins. -/
theorem daysToMonth_add_daysIn (year : Int) {month : Nat} (h₁ : 1 ≤ month) (h₁₂ : month ≤ 12)
    (h₂ : month ≠ 2) :
    daysToMonth (marchMonth month) + daysIn year month = daysToMonth (marchMonth month + 1) := by
  interval_cases month <;> first | rfl | exact absurd rfl h₂

/-- After the last day of February the next year begins. -/
theorem daysToMonth_add_february (year : Int) :
    daysToMonth (marchMonth 2) + daysIn year 2 = lengthFromMarch (marchYear year 2) := by
  have hyear : marchYear year 2 + 1 = year := by
    rw [marchYear, if_pos (by decide), Int.sub_add_cancel]
  rw [lengthFromMarch, hyear, daysIn, if_pos rfl]
  split <;> rfl

theorem daysIn_pos (year : Int) (month : Nat) : 1 ≤ daysIn year month := by
  unfold daysIn
  split
  · split <;> decide
  · split <;> decide

/-- A day that exists is in its month. -/
theorem daysToMonth_add_day_le {year : Int} {month day : Nat} (h : IsDate year month day) :
    daysToMonth (marchMonth month) + day ≤ daysToMonth (marchMonth month + 1) := by
  obtain ⟨-, -, h₁, h₁₂, -, hday⟩ := h
  by_cases h₂ : month = 2
  · subst h₂
    have hlength : daysIn year 2 ≤ 29 := by
      rw [daysIn, if_pos rfl]
      split <;> decide
    show 337 + day ≤ 367
    omega
  · have hlength := daysToMonth_add_daysIn year h₁ h₁₂ h₂
    omega

/-- A day that exists is in its year. -/
theorem daysToMonth_add_day_le_length {year : Int} {month day : Nat} (h : IsDate year month day) :
    daysToMonth (marchMonth month) + day ≤ lengthFromMarch (marchYear year month) := by
  have hmonth := daysToMonth_add_day_le h
  obtain ⟨-, -, h₁, h₁₂, -, hday⟩ := h
  by_cases h₂ : month = 2
  · subst h₂
    have hlength := daysToMonth_add_february year
    omega
  · have hlast : marchMonth month + 1 ≤ 11 := by
      unfold marchMonth
      omega
    calc daysToMonth (marchMonth month) + day ≤ daysToMonth (marchMonth month + 1) := hmonth
      _ ≤ daysToMonth 11 := daysToMonth_mono hlast
      _ ≤ 365 := by decide
      _ ≤ lengthFromMarch (marchYear year month) := by
        unfold lengthFromMarch
        split <;> decide

/-- The first day of the next month has the next number. -/
theorem dayNumber_next_month (year : Int) {month : Nat} (h₁ : 1 ≤ month) (h₁₂ : month < 12) :
    dayNumber year (month + 1) 1 = dayNumber year month (daysIn year month) + 1 := by
  unfold dayNumber
  by_cases h₂ : month = 2
  · subst h₂
    have hlength := daysToMonth_add_february year
    have hsucc := daysToMarch_succ (marchYear year 2)
    have hyear : marchYear year 3 = marchYear year 2 + 1 := by
      rw [marchYear, marchYear, if_neg (by decide), if_pos (by decide), Int.sub_add_cancel]
    have hfirst : daysToMonth (marchMonth 3) = 0 := rfl
    rw [hyear, hsucc, ← hlength, hfirst]
    omega
  · have hlength := daysToMonth_add_daysIn year h₁ h₁₂.le h₂
    have hmonth : marchMonth (month + 1) = marchMonth month + 1 := by
      unfold marchMonth
      omega
    have hyear : marchYear year (month + 1) = marchYear year month := by
      unfold marchYear
      split <;> split <;> omega
    rw [hmonth, hyear, ← hlength]
    omega

/-- The first day of the next year has the next number. -/
theorem dayNumber_next_year (year : Int) :
    dayNumber (year + 1) 1 1 = dayNumber year 12 31 + 1 := by
  have hyear : marchYear (year + 1) 1 = marchYear year 12 := by
    rw [marchYear, marchYear, if_pos (by decide), if_neg (by decide), Int.add_sub_cancel]
  unfold dayNumber
  rw [hyear]
  show daysToMarch (marchYear year 12) + 306 + 1 = daysToMarch (marchYear year 12) + 275 + 31 + 1
  omega

namespace Date

theorem number_eq (d : Date) : d.number = dayNumber d.year d.month d.day := rfl

theorem day_pos (d : Date) : 1 ≤ d.day := d.exists_day.2.2.2.2.1

theorem day_le (d : Date) : d.day ≤ daysIn d.year d.month := d.exists_day.2.2.2.2.2

theorem month_pos (d : Date) : 1 ≤ d.month := d.exists_day.2.2.1

theorem month_le (d : Date) : d.month ≤ 12 := d.exists_day.2.2.2.1

/-! ### The number of a date -/

theorem number_lt_of_year {d e : Date} (h : marchYear d.year d.month < marchYear e.year e.month) :
    d.number < e.number := by
  have hsucc := daysToMarch_succ (marchYear d.year d.month)
  have hle := daysToMarch_mono (Int.add_one_le_of_lt h)
  have hd := daysToMonth_add_day_le_length d.exists_day
  have he := e.day_pos
  rw [number_eq, number_eq, dayNumber, dayNumber]
  omega

theorem number_lt_of_month {d e : Date}
    (hyear : marchYear d.year d.month = marchYear e.year e.month)
    (h : marchMonth d.month < marchMonth e.month) : d.number < e.number := by
  have hle := daysToMonth_mono (Nat.add_one_le_of_lt h)
  have hd := daysToMonth_add_day_le d.exists_day
  have he := e.day_pos
  rw [number_eq, number_eq, dayNumber, dayNumber, hyear]
  omega

/-- **No two dates have the same number.** -/
theorem number_inj {d e : Date} (h : d.number = e.number) : d = e := by
  have hyear : marchYear d.year d.month = marchYear e.year e.month := by
    rcases lt_trichotomy (marchYear d.year d.month) (marchYear e.year e.month) with hlt | heq | hlt
    · exact absurd h (number_lt_of_year hlt).ne
    · exact heq
    · exact absurd h (number_lt_of_year hlt).ne'
  have hmonth : marchMonth d.month = marchMonth e.month := by
    rcases lt_trichotomy (marchMonth d.month) (marchMonth e.month) with hlt | heq | hlt
    · exact absurd h (number_lt_of_month hyear hlt).ne
    · exact heq
    · exact absurd h (number_lt_of_month hyear.symm hlt).ne'
  rw [number_eq, number_eq, dayNumber, dayNumber, hyear, hmonth] at h
  have hd := d.month_pos
  have hd' := d.month_le
  have he := e.month_pos
  have he' := e.month_le
  obtain ⟨year, month, day, _⟩ := d
  obtain ⟨year', month', day', _⟩ := e
  simp only [marchYear, marchMonth] at hyear hmonth h hd hd' he he'
  obtain rfl : month = month' := by omega
  obtain rfl : day = day' := by omega
  obtain rfl : year = year' := by split at hyear <;> omega
  rfl

/-! ### One day later and one day earlier -/

theorem of?_eq_some_iff {year : Int} {month day : Nat} {d : Date} :
    of? year month day = some d ↔ d.year = year ∧ d.month = month ∧ d.day = day := by
  constructor
  · intro h
    unfold of? at h
    split at h
    · cases h
      exact ⟨rfl, rfl, rfl⟩
    · cases h
  · rintro ⟨rfl, rfl, rfl⟩
    exact dif_pos d.exists_day

theorem of?_eq_none_iff {year : Int} {month day : Nat} :
    of? year month day = none ↔ ¬ IsDate year month day := by
  unfold of?
  split
  case isTrue h => simp [h]
  case isFalse h => simp [h]

/-- The date one day later has the next number. -/
theorem number_of_next? {d e : Date} (h : d.next? = some e) : e.number = d.number + 1 := by
  have hle := d.day_le
  rw [number_eq, number_eq]
  unfold next? at h
  split at h
  case isTrue =>
    obtain ⟨hyear, hmonth, hday⟩ := of?_eq_some_iff.mp h
    rw [hyear, hmonth, hday, dayNumber, dayNumber]
    omega
  case isFalse hlast =>
    have hlast : d.day = daysIn d.year d.month := by omega
    split at h
    case isTrue hlt =>
      obtain ⟨hyear, hmonth, hday⟩ := of?_eq_some_iff.mp h
      rw [hyear, hmonth, hday, hlast]
      exact dayNumber_next_month d.year d.month_pos hlt
    case isFalse hge =>
      obtain ⟨hyear, hmonth, hday⟩ := of?_eq_some_iff.mp h
      have hdecember : d.month = 12 := by have := d.month_le; omega
      rw [hyear, hmonth, hday, hlast, hdecember]
      exact dayNumber_next_year d.year

/-- Going one day back and one day on leads to the same date. -/
theorem next?_of_previous? {d e : Date} (h : d.previous? = some e) : e.next? = some d := by
  have hle := d.day_le
  have hmonth_pos := d.month_pos
  unfold previous? at h
  split at h
  case isTrue hfirst =>
    obtain ⟨hyear, hmonth, hday⟩ := of?_eq_some_iff.mp h
    rw [next?, hyear, hmonth, hday, if_pos (by omega), of?_eq_some_iff]
    exact ⟨rfl, rfl, by omega⟩
  case isFalse hfirst =>
    have hfirst : d.day = 1 := by have := d.day_pos; omega
    split at h
    case isTrue hlt =>
      obtain ⟨hyear, hmonth, hday⟩ := of?_eq_some_iff.mp h
      have hle₁₂ := d.month_le
      rw [next?, hyear, hmonth, hday, if_neg (Nat.lt_irrefl _), if_pos (by omega), of?_eq_some_iff]
      exact ⟨rfl, by omega, hfirst⟩
    case isFalse hge =>
      obtain ⟨hyear, hmonth, hday⟩ := of?_eq_some_iff.mp h
      have hlast : daysIn (d.year - 1) 12 = 31 := rfl
      rw [next?, hyear, hmonth, hday, hlast, if_neg (by decide), if_neg (by decide),
        of?_eq_some_iff]
      exact ⟨by omega, by omega, hfirst⟩

/-! ### The ends of the calendar -/

/-- Of all dates up to a year its last day has the greatest number. -/
theorem number_le_december (d : Date) {year : Int} (h : d.year ≤ year) :
    d.number ≤ dayNumber year 12 31 := by
  have hyear : marchYear d.year d.month ≤ d.year := by
    unfold marchYear
    split <;> omega
  have hlast : dayNumber year 12 31 = daysToMarch year + 275 + 31 := rfl
  rw [number_eq, hlast, dayNumber]
  rcases lt_or_eq_of_le (hyear.trans h) with hlt | heq
  · have hsucc := daysToMarch_succ (marchYear d.year d.month)
    have hle := daysToMarch_mono (Int.add_one_le_of_lt hlt)
    have hd := daysToMonth_add_day_le_length d.exists_day
    omega
  · have hmonth : marchMonth d.month + 1 ≤ 10 := by
      have := d.month_le
      unfold marchYear at heq
      unfold marchMonth
      split at heq <;> omega
    have hle := daysToMonth_mono hmonth
    have hten : daysToMonth 10 = 306 := rfl
    have hd := daysToMonth_add_day_le d.exists_day
    rw [heq]
    omega

/-- Of all dates from a year on its first day has the least number. -/
theorem january_le_number (d : Date) {year : Int} (h : year ≤ d.year) :
    dayNumber year 1 1 ≤ d.number := by
  have hyear : d.year - 1 ≤ marchYear d.year d.month := by
    unfold marchYear
    split <;> omega
  have hfirst : dayNumber year 1 1 = daysToMarch (year - 1) + 306 + 1 := rfl
  have hday := d.day_pos
  rw [number_eq, hfirst, dayNumber]
  rcases lt_or_eq_of_le (show year - 1 ≤ marchYear d.year d.month by omega) with hlt | heq
  · have hsucc := daysToMarch_succ (year - 1)
    have hle := daysToMarch_mono (Int.add_one_le_of_lt hlt)
    have hlength : 365 ≤ lengthFromMarch (year - 1) := by
      unfold lengthFromMarch
      split <;> decide
    omega
  · have hmonth : 10 ≤ marchMonth d.month := by
      have := d.month_pos
      unfold marchYear at heq
      unfold marchMonth
      split at heq <;> omega
    have hle := daysToMonth_mono hmonth
    have hten : daysToMonth 10 = 306 := rfl
    rw [← heq]
    omega

/-- Only the last date has none after it. -/
theorem number_le_of_next?_eq_none {d : Date} (h : d.next? = none) (e : Date) :
    e.number ≤ d.number := by
  obtain ⟨hleast, hgreatest, h₁, h₁₂, hday, hlast⟩ := d.exists_day
  unfold next? at h
  split at h
  case isTrue hlt =>
    exact absurd ⟨hleast, hgreatest, h₁, h₁₂, by omega, hlt⟩ (of?_eq_none_iff.mp h)
  case isFalse hend =>
    split at h
    case isTrue hlt =>
      exact absurd ⟨hleast, hgreatest, by omega, hlt, by omega, daysIn_pos _ _⟩
        (of?_eq_none_iff.mp h)
    case isFalse hge =>
      have hyear : ¬ d.year + 1 ≤ 262142 := fun hle => of?_eq_none_iff.mp h
        ⟨by omega, hle, by decide, by decide, by decide, daysIn_pos _ _⟩
      have hmonth : d.month = 12 := by omega
      rw [hmonth] at hend hlast
      have hdecember : d.number = dayNumber d.year 12 31 := by
        have hdays : daysIn d.year 12 = 31 := rfl
        rw [number_eq, hmonth, show d.day = 31 by omega]
      rw [hdecember]
      exact e.number_le_december (by have := e.exists_day.2.1; omega)

/-- Only the first date has none before it. -/
theorem le_number_of_previous?_eq_none {d : Date} (h : d.previous? = none) (e : Date) :
    d.number ≤ e.number := by
  obtain ⟨hleast, hgreatest, h₁, h₁₂, hday, hlast⟩ := d.exists_day
  unfold previous? at h
  split at h
  case isTrue hlt =>
    exact absurd ⟨hleast, hgreatest, h₁, h₁₂, by omega, by omega⟩ (of?_eq_none_iff.mp h)
  case isFalse hend =>
    split at h
    case isTrue hlt =>
      exact absurd ⟨hleast, hgreatest, by omega, by omega, daysIn_pos _ _, Nat.le_refl _⟩
        (of?_eq_none_iff.mp h)
    case isFalse hge =>
      have hyear : ¬ -262143 ≤ d.year - 1 := fun hle => of?_eq_none_iff.mp h
        ⟨hle, by omega, by decide, by decide, by decide, Nat.le_refl 31⟩
      have hjanuary : d.number = dayNumber d.year 1 1 := by
        rw [number_eq, show d.month = 1 by omega, show d.day = 1 by omega]
      rw [hjanuary]
      exact e.january_le_number (by have := e.exists_day.1; omega)

/-- **The date one day later** is the one with the next number. -/
theorem next?_eq_some_iff {d e : Date} : d.next? = some e ↔ e.number = d.number + 1 := by
  refine ⟨number_of_next?, fun h => ?_⟩
  cases hnext : d.next? with
  | none =>
    have := number_le_of_next?_eq_none hnext e
    omega
  | some f =>
    have := number_of_next? hnext
    rw [number_inj (this.trans h.symm)]

/-- The date one day earlier is the one with the number before. -/
theorem previous?_eq_some_iff {d e : Date} : d.previous? = some e ↔ e.number + 1 = d.number := by
  refine ⟨fun h => (number_of_next? (next?_of_previous? h)).symm, fun h => ?_⟩
  cases hprevious : d.previous? with
  | none =>
    have := le_number_of_previous?_eq_none hprevious e
    omega
  | some f =>
    have := number_of_next? (next?_of_previous? hprevious)
    rw [number_inj (show f.number = e.number by omega)]

/-- The date some seconds after the midnight at which a date begins, if it is the date itself or the
one before or after it. -/
theorem shifted_eq_some_iff {d e : Date} {seconds : Int} (h : -86400 ≤ seconds)
    (h' : seconds < 172800) :
    (if seconds < 0 then d.previous? else if 86400 ≤ seconds then d.next? else some d) = some e ↔
      e.number = d.number + seconds / 86400 := by
  split
  case isTrue hneg =>
    rw [previous?_eq_some_iff]
    omega
  case isFalse hpos =>
    split
    case isTrue hge =>
      rw [next?_eq_some_iff]
      omega
    case isFalse hlt =>
      have hzero : seconds / 86400 = 0 := by omega
      rw [hzero, Int.add_zero, Option.some.injEq]
      exact ⟨fun h => h ▸ rfl, fun h => (number_inj h).symm⟩

end Date

/-! ### Times of day -/

namespace Time

theorem seconds_lt (t : Time) : t.seconds < 86400 := by
  have := t.hour_lt
  have := t.minute_lt
  have := t.second_lt
  unfold seconds
  omega

/-- A time of day is its seconds and its nanoseconds. -/
theorem of?_seconds_eq_some_iff {n nano : Nat} {t : Time} :
    of? (n / 3600) (n / 60 % 60) (n % 60) nano = some t ↔ t.seconds = n ∧ t.nano = nano := by
  obtain ⟨hour, minute, second, nano', hhour, hminute, hsecond, hnano⟩ := t
  unfold of? seconds
  constructor
  · intro h
    split at h
    · cases h
      exact ⟨by dsimp only; omega, rfl⟩
    · cases h
  · rintro ⟨hseconds, rfl⟩
    dsimp only at hseconds hnano ⊢
    have hfields : n / 3600 = hour ∧ n / 60 % 60 = minute ∧ n % 60 = second := by omega
    obtain ⟨rfl, rfl, rfl⟩ := hfields
    exact dif_pos ⟨hhour, hminute, hsecond, hnano⟩

theorem eq_of_seconds {t u : Time} (hseconds : t.seconds = u.seconds) (hnano : t.nano = u.nano) :
    t = u := by
  have ht := of?_seconds_eq_some_iff.mpr ⟨hseconds, hnano⟩
  have hu := (of?_seconds_eq_some_iff (t := u)).mpr ⟨rfl, rfl⟩
  exact Option.some.inj (ht.symm.trans hu)

end Time

/-! ### Instants -/

namespace DateTime

/-- The same instant: as many seconds, leap seconds not counted, and as many nanoseconds. -/
theorem instant_eq_iff (x y : DateTime) :
    x.instant = y.instant ↔
      x.date.number * 86400 + x.time.seconds - x.offset =
        y.date.number * 86400 + y.time.seconds - y.offset ∧ x.time.nano = y.time.nano :=
  Prod.ext_iff

/-- An instant at an offset is one date-time. -/
theorem eq_of_instant {x y : DateTime} (h : x.instant = y.instant) (hoffset : x.offset = y.offset) :
    x = y := by
  obtain ⟨hseconds, hnano⟩ := (instant_eq_iff x y).mp h
  have hx := x.time.seconds_lt
  have hy := y.time.seconds_lt
  obtain ⟨date, time, offset, _, _⟩ := x
  obtain ⟨date', time', offset', _, _⟩ := y
  dsimp only at hseconds hnano hoffset hx hy
  obtain rfl : offset = offset' := hoffset
  obtain rfl : date = date' := Date.number_inj (by omega)
  obtain rfl : time = time' := Time.eq_of_seconds (by omega) hnano
  rfl

/-- At one offset only does the clock show an instant. -/
theorem offset_eq_of_local {x y : DateTime} (h : x.instant = y.instant) (hdate : x.date = y.date)
    (hseconds : x.time.seconds = y.time.seconds) : x.offset = y.offset := by
  obtain ⟨hinstant, -⟩ := (instant_eq_iff x y).mp h
  rw [hdate, hseconds] at hinstant
  omega

/-- A leap second is the same instant as no ordinary time. -/
theorem leap_iff_of_instant {x y : DateTime} (h : x.instant = y.instant) :
    1000000000 ≤ x.time.nano ↔ 1000000000 ≤ y.time.nano := by
  rw [((instant_eq_iff x y).mp h).2]

theorem of?_eq_some_iff {date : Date} {time : Time} {offset : Int} {x : DateTime} :
    of? date time offset = some x ↔ x.date = date ∧ x.time = time ∧ x.offset = offset := by
  constructor
  · intro h
    unfold of? at h
    split at h
    · cases h
      exact ⟨rfl, rfl, rfl⟩
    · cases h
  · rintro ⟨rfl, rfl, rfl⟩
    exact dif_pos ⟨x.lt_offset, x.offset_lt⟩

/-- **The date-time at offset zero** is the one with the same instant. -/
theorem toUtc?_eq_some_iff {x u : DateTime} :
    x.toUtc? = some u ↔ u.offset = 0 ∧ u.instant = x.instant := by
  have hseconds := x.time.seconds_lt
  have hoffset := x.lt_offset
  have hoffset' := x.offset_lt
  have hu := u.time.seconds_lt
  have hparts : x.toUtc? = some u ↔
      u.date.number = x.date.number + ((x.time.seconds : Int) - x.offset) / 86400 ∧
        (u.time.seconds = (((x.time.seconds : Int) - x.offset) % 86400).toNat ∧
          u.time.nano = x.time.nano) ∧ u.offset = 0 := by
    rw [← Date.shifted_eq_some_iff (by omega) (by omega), ← Time.of?_seconds_eq_some_iff]
    unfold toUtc?
    dsimp only
    split
    case h_1 date time hdate htime =>
      rw [hdate, htime, of?_eq_some_iff, Option.some.injEq, Option.some.injEq, eq_comm (a := date),
        eq_comm (a := time)]
    case h_2 hnone =>
      refine iff_of_false (fun h => by cases h) ?_
      rintro ⟨hdate, htime, -⟩
      exact hnone _ _ hdate htime
  rw [hparts, instant_eq_iff]
  omega

end DateTime

end QueryTree.Calendar
