import QueryTree.Proofs.Calendar.Instant
import QueryTree.Proofs.Literal.NormalForm
import QueryTree.Proofs.Number.Conversion

/-!
# Equality of literals

What `Literal.same` compares, as a relation (`Literal.Equated`): literals of one kind, and of these
floating point numbers as numbers, date-times as instants, and everything else as it is. It is
symmetric and transitive, and a literal equals itself unless it is no number. Equal literals have the
same text, except for two kinds of pairs (`Literal.Parted`): the two zeros, and an instant at two
offsets.
-/

namespace QueryTree

open QueryTree.Calendar QueryTree.Number

/-! ### Floating point numbers -/

namespace Number.Format

variable {f : Format} {a b c : Nat}

/-- The patterns of the two zeros. -/
def OppositeZeros (f : Format) (a b : Nat) : Prop := a = 0 ∧ b = f.signBit ∨ a = f.signBit ∧ b = 0

theorem OppositeZeros.ne (h : f.OppositeZeros a b) : a ≠ b := by
  have hpos : 0 < f.signBit := Nat.two_pow_pos _
  unfold OppositeZeros at h
  omega

/-- There are no more than two zeros. -/
theorem OppositeZeros.eq (h : f.OppositeZeros a b) (h' : f.OppositeZeros b c) : a = c := by
  have hpos : 0 < f.signBit := Nat.two_pow_pos _
  unfold OppositeZeros at h h'
  omega

theorem oppositeZeros_signed {m n : Bool} (h : m ≠ n) :
    f.OppositeZeros (f.signed m 0) (f.signed n 0) := by
  cases m <;> cases n
  · exact absurd rfl h
  · exact .inl ⟨rfl, rfl⟩
  · exact .inr ⟨rfl, rfl⟩
  · exact absurd rfl h

theorem OppositeZeros.exists_signed (h : f.OppositeZeros a b) :
    ∃ m n, a = f.signed m 0 ∧ b = f.signed n 0 := by
  rcases h with ⟨rfl, rfl⟩ | ⟨rfl, rfl⟩
  · exact ⟨false, true, rfl, rfl⟩
  · exact ⟨true, false, rfl, rfl⟩

/-- Zeros are equal whatever their signs. -/
theorem equal_zeros (hf : 0 < f.infinity) (m n : Bool) :
    f.equal (f.signed m 0) (f.signed n 0) = true := by
  have hzero : f.significand 0 = 0 := Nat.zero_sub _
  simp [equal, decode_signed _ hf, hzero]

theorem decode_ne_nan_of_equal (h : f.equal a b = true) :
    f.decode a ≠ .nan ∧ f.decode b ≠ .nan := by
  constructor
  · intro hnan
    simp [equal, hnan] at h
  · intro hnan
    cases ha : f.decode a <;> simp [equal, hnan, ha] at h

/-- A number equals itself. -/
theorem equal_self (h : f.decode a ≠ .nan) : f.equal a a = true := by
  cases ha : f.decode a with
  | nan => exact absurd ha h
  | infinite n => simp [equal, ha]
  | finite n s e => simp [equal, ha]

/-- Numbers that are equal have the same pattern, or are zeros. -/
theorem eq_or_of_equal (ha : a < 2 * f.signBit) (hb : b < 2 * f.signBit)
    (h : f.equal a b = true) : a = b ∨ f.OppositeZeros a b := by
  obtain ⟨hna, hnb⟩ := decode_ne_nan_of_equal h
  obtain ⟨m, x, hx, rfl⟩ := exists_signed ha hna
  obtain ⟨n, y, hy, rfl⟩ := exists_signed hb hnb
  rcases Nat.lt_or_eq_of_le hx with hx | rfl <;> rcases Nat.lt_or_eq_of_le hy with hy | rfl
  · rw [equal, decode_signed m hx, decode_signed n hy] at h
    simp only [Bool.and_eq_true, Bool.or_eq_true, beq_iff_eq] at h
    obtain ⟨hsig, hzero | ⟨rfl, horder⟩⟩ := h
    · obtain rfl := f.eq_zero_of_significand hzero
      obtain rfl := f.eq_zero_of_significand (hsig.symm.trans hzero)
      by_cases hmn : m = n
      · exact .inl (by rw [hmn])
      · exact .inr (oppositeZeros_signed hmn)
    · have horder : f.order x = f.order y := by omega
      left
      rw [← f.order_mul_hidden_add x, horder, hsig, f.order_mul_hidden_add]
  · rw [equal, decode_signed m hx, decode_signed_infinity] at h
    cases h
  · rw [equal, decode_signed n hy, decode_signed_infinity] at h
    cases h
  · rw [equal, decode_signed_infinity, decode_signed_infinity] at h
    exact .inl (by rw [beq_iff_eq.mp h])

theorem equal_symm (hf : 0 < f.infinity) (ha : a < 2 * f.signBit) (hb : b < 2 * f.signBit)
    (h : f.equal a b = true) : f.equal b a = true := by
  rcases eq_or_of_equal ha hb h with rfl | hzeros
  · exact h
  · obtain ⟨m, n, rfl, rfl⟩ := hzeros.exists_signed
    exact equal_zeros hf n m

theorem equal_trans (ha : a < 2 * f.signBit) (hb : b < 2 * f.signBit) (hc : c < 2 * f.signBit)
    (h : f.equal a b = true) (h' : f.equal b c = true) : f.equal a c = true := by
  rcases eq_or_of_equal ha hb h with rfl | hzeros
  · exact h'
  · rcases eq_or_of_equal hb hc h' with rfl | hzeros'
    · exact h
    · rw [← hzeros.eq hzeros']
      exact equal_self (decode_ne_nan_of_equal h).1

end Number.Format

namespace Literal

/-! ### Kinds -/

/-- The kinds of literals. -/
inductive Kind where
  | bool
  | byte
  | short
  | int
  | long
  | float
  | double
  | calendar
  | date
  | instant
  | name
  | text
  | opaqueForm
  deriving Repr, DecidableEq

/-- The kind of a literal. -/
def kind : Literal → Kind
  | bool _ => .bool
  | byte _ => .byte
  | short _ => .short
  | int _ => .int
  | long _ => .long
  | float _ => .float
  | double _ => .double
  | calendar _ => .calendar
  | date _ => .date
  | instant _ => .instant
  | name _ => .name
  | text _ => .text
  | opaqueForm _ => .opaqueForm

/-- The literal is a floating point value that is no number. -/
def isNaN : Literal → Bool
  | float b => Format.single.decode b.toNat == .nan
  | double b => Format.double.decode b.toNat == .nan
  | _ => false

/-- The literal is compared as it is. -/
def isPlain : Literal → Bool
  | float _ => false
  | double _ => false
  | calendar _ => false
  | instant _ => false
  | _ => true

/-! ### Equal literals -/

/-- Literals of one kind that are equal. -/
inductive Equated : Literal → Literal → Prop where
  | plain {l : Literal} : l.isPlain = true → Equated l l
  | float {a b : UInt32} : Format.single.equal a.toNat b.toNat = true →
    Equated (float a) (float b)
  | double {a b : UInt64} : Format.double.equal a.toNat b.toNat = true →
    Equated (double a) (double b)
  | calendar {x y : DateTime} : x.instant = y.instant → Equated (calendar x) (calendar y)
  | instant {x y : DateTime} : x.instant = y.instant → Equated (instant x) (instant y)

theorem same_of_isPlain {l : Literal} (h : l.isPlain = true) : l.same l = true := by
  cases l with
  | float b => cases h
  | double b => cases h
  | calendar x => cases h
  | instant x => cases h
  | _ => exact beq_self_eq_true _

theorem same_iff_equated {a b : Literal} : a.same b = true ↔ Equated a b := by
  constructor
  · intro h
    unfold same at h
    split at h
    case h_6 => exact .float h
    case h_7 => exact .double h
    case h_8 => exact .calendar (beq_iff_eq.mp h)
    case h_10 => exact .instant (beq_iff_eq.mp h)
    case h_14 => cases h
    all_goals
      rw [beq_iff_eq] at h
      rw [h]
      exact .plain rfl
  · intro h
    cases h with
    | plain h => exact same_of_isPlain h
    | float h => exact h
    | double h => exact h
    | calendar h => exact beq_iff_eq.mpr h
    | instant h => exact beq_iff_eq.mpr h

namespace Equated

variable {a b c : Literal}

theorem symm (h : Equated a b) : Equated b a := by
  cases h with
  | plain h => exact .plain h
  | @float a b h => exact .float (Format.equal_symm (by decide) a.toNat_lt b.toNat_lt h)
  | @double a b h => exact .double (Format.equal_symm (by decide) a.toNat_lt b.toNat_lt h)
  | calendar h => exact .calendar h.symm
  | instant h => exact .instant h.symm

theorem trans (h : Equated a b) (h' : Equated b c) : Equated a c := by
  cases h with
  | plain h => exact h'
  | @float a b h =>
    cases h' with
    | plain h' => cases h'
    | @float _ c h' => exact .float (Format.equal_trans a.toNat_lt b.toNat_lt c.toNat_lt h h')
  | @double a b h =>
    cases h' with
    | plain h' => cases h'
    | @double _ c h' => exact .double (Format.equal_trans a.toNat_lt b.toNat_lt c.toNat_lt h h')
  | calendar h =>
    cases h' with
    | plain h' => cases h'
    | calendar h' => exact .calendar (h.trans h')
  | instant h =>
    cases h' with
    | plain h' => cases h'
    | instant h' => exact .instant (h.trans h')

/-- A literal equals itself unless it is no number. -/
theorem self_iff (l : Literal) : Equated l l ↔ l.isNaN = false := by
  cases l with
  | float b =>
    rw [isNaN, beq_eq_false_iff_ne]
    refine ⟨fun h => ?_, fun h => .float (Format.equal_self h)⟩
    cases h with
    | plain h => cases h
    | float h => exact (Format.decode_ne_nan_of_equal h).1
  | double b =>
    rw [isNaN, beq_eq_false_iff_ne]
    refine ⟨fun h => ?_, fun h => .double (Format.equal_self h)⟩
    cases h with
    | plain h => cases h
    | double h => exact (Format.decode_ne_nan_of_equal h).1
  | calendar x => exact iff_of_true (.calendar rfl) rfl
  | instant x => exact iff_of_true (.instant rfl) rfl
  | _ => exact iff_of_true (.plain rfl) rfl

/-- Kinds are never mixed. -/
theorem kind_eq (h : Equated a b) : a.kind = b.kind := by
  cases h <;> rfl

end Equated

theorem same_calendar_iff (x y : DateTime) :
    (calendar x).same (calendar y) = true ↔ x.instant = y.instant :=
  beq_iff_eq

theorem same_instant_iff (x y : DateTime) :
    (instant x).same (instant y) = true ↔ x.instant = y.instant :=
  beq_iff_eq

/-! ### Equal literals with different texts -/

/-- The two zeros of a format, or an instant at two offsets. -/
inductive Parted : Literal → Literal → Prop where
  | float {a b : UInt32} : Format.single.OppositeZeros a.toNat b.toNat →
    Parted (float a) (float b)
  | double {a b : UInt64} : Format.double.OppositeZeros a.toNat b.toNat →
    Parted (double a) (double b)
  | calendar {x y : DateTime} : x.instant = y.instant → x.offset ≠ y.offset →
    Parted (calendar x) (calendar y)
  | instant {x y : DateTime} : x.instant = y.instant → x.offset ≠ y.offset →
    Parted (instant x) (instant y)

/-- The text of a number tells equal numbers apart only if they are the two zeros. -/
theorem write_eq_iff_of_equal {f : Format} (hf : f.IsShort) {a b : Nat} (ha : a < 2 * f.signBit)
    (hb : b < 2 * f.signBit) (h : f.equal a b = true) :
    Layout.query.write f a = Layout.query.write f b ↔ ¬ f.OppositeZeros a b := by
  rcases Format.eq_or_of_equal ha hb h with rfl | hzeros
  · exact iff_of_true rfl fun hzeros => hzeros.ne rfl
  · refine iff_of_false (fun htext => hzeros.ne ?_) (not_not_intro hzeros)
    have hnumber := (Format.decode_ne_nan_of_equal h).1
    rw [ne_eq, Format.decode_eq_nan_iff] at hnumber
    rw [Layout.write_query_eq_iff hf ha hb, Format.merged_eq_iff ha hb] at htext
    exact Format.decode_inj ha hb hnumber htext

/-- What is shown of an instant tells its offset. -/
theorem offset_eq_of_shown {x y : DateTime} (h : x.instant = y.instant) (hshown : x.shown = y.shown) :
    x.offset = y.offset := by
  have hnano := ((DateTime.instant_eq_iff x y).mp h).2
  simp only [DateTime.shown, Shown.mk.injEq, Time.shownSecond] at hshown
  obtain ⟨hdate, hhour, hminute, hsecond, -, -⟩ := hshown
  apply DateTime.offset_eq_of_local h hdate
  unfold Time.seconds
  omega

/-- So does its date if the time of day is midnight. -/
theorem offset_eq_of_midnight {x y : DateTime} (h : x.instant = y.instant)
    (hx : x.time.isMidnight = true) (hy : y.time.isMidnight = true) (hdate : x.date = y.date) :
    x.offset = y.offset := by
  obtain ⟨hx₁, hx₂, hx₃, -⟩ := (isMidnight_iff x.time).mp hx
  obtain ⟨hy₁, hy₂, hy₃, -⟩ := (isMidnight_iff y.time).mp hy
  apply DateTime.offset_eq_of_local h hdate
  rw [Time.seconds, Time.seconds, hx₁, hx₂, hx₃, hy₁, hy₂, hy₃]

theorem dateTime_chars_eq_iff {x y : DateTime} (h : x.instant = y.instant) :
    x.chars = y.chars ↔ x.offset = y.offset := by
  constructor
  · exact fun htext => offset_eq_of_shown h ((DateTime.chars_eq_iff x y).mp htext)
  · exact fun hoffset => by rw [DateTime.eq_of_instant h hoffset]

theorem calendarChars_eq_iff {x y : DateTime} (h : x.instant = y.instant) :
    calendarChars x = calendarChars y ↔ x.offset = y.offset := by
  refine ⟨fun htext => ?_, fun hoffset => by rw [DateTime.eq_of_instant h hoffset]⟩
  have hne : ∀ (d : Date) (z : DateTime), d.chars ≠ z.chars := by
    intro d z heq
    have hform := formOf_date d
    rw [heq, formOf_dateTime] at hform
    cases hform
  unfold calendarChars at htext
  split at htext <;> split at htext
  case isTrue.isTrue hx hy => exact offset_eq_of_midnight h hx hy (Date.chars_inj htext)
  case isTrue.isFalse => exact absurd htext (hne _ _)
  case isFalse.isTrue => exact absurd htext.symm (hne _ _)
  case isFalse.isFalse => exact (dateTime_chars_eq_iff h).mp htext

theorem parted_float_iff {a b : UInt32} :
    Parted (float a) (float b) ↔ Format.single.OppositeZeros a.toNat b.toNat :=
  ⟨fun h => by cases h; assumption, .float⟩

theorem parted_double_iff {a b : UInt64} :
    Parted (double a) (double b) ↔ Format.double.OppositeZeros a.toNat b.toNat :=
  ⟨fun h => by cases h; assumption, .double⟩

theorem parted_calendar_iff {x y : DateTime} (h : x.instant = y.instant) :
    Parted (calendar x) (calendar y) ↔ x.offset ≠ y.offset :=
  ⟨fun h => by cases h; assumption, .calendar h⟩

theorem parted_instant_iff {x y : DateTime} (h : x.instant = y.instant) :
    Parted (instant x) (instant y) ↔ x.offset ≠ y.offset :=
  ⟨fun h => by cases h; assumption, .instant h⟩

/-- **Equal literals have the same text** exactly if they are not parted. -/
theorem encode_eq_iff_not_parted {a b : Literal} (h : Equated a b) :
    a.encode = b.encode ↔ ¬ Parted a b := by
  have hchars : a.encode = b.encode ↔ a.chars = b.chars := String.ofList_inj
  rw [hchars]
  cases h with
  | @plain l h =>
    refine iff_of_true rfl fun hparted => ?_
    cases hparted <;> cases h
  | @float a b h =>
    rw [parted_float_iff]
    exact write_eq_iff_of_equal Format.isShort_single a.toNat_lt b.toNat_lt h
  | @double a b h =>
    rw [parted_double_iff, chars, chars, List.append_left_inj]
    exact write_eq_iff_of_equal Format.isShort_double a.toNat_lt b.toNat_lt h
  | @calendar x y h =>
    rw [parted_calendar_iff h, not_not]
    exact calendarChars_eq_iff h
  | @instant x y h =>
    rw [parted_instant_iff h, not_not]
    exact dateTime_chars_eq_iff h

end Literal

end QueryTree
