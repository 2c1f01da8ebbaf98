import QueryTree.Proofs.Literal.Form
import QueryTree.Proofs.Number.Writing

/-!
# Literals with the same text

Which literals have the same text (`encode_eq_iff`). What a text tells of its literal is the
literal's normal form: the width of a short integer, the part of a date-time that is not shown, the
kind of a quoted text and the pattern of a number that is none are lost, and a calendar at midnight
is a date.
-/

namespace QueryTree

open QueryTree.Calendar QueryTree.Number QueryTree.Text

/-- The normal forms of literals. -/
inductive Normal where
  | boolean (value : Bool)
  /-- An integer of at most 32 bits. -/
  | integer (value : Int)
  | long (value : Int)
  /-- A bit pattern, or none for a value that is no number. -/
  | float (bits : Option Nat)
  | double (bits : Option Nat)
  | date (value : Date)
  | dateTime (value : Shown)
  | quoted (inner : String)
  deriving DecidableEq

/-- The form of the texts of a normal form. -/
def Normal.form : Normal → Form
  | boolean _ => .boolean
  | integer _ => .integer
  | long _ => .long
  | float _ => .float
  | double _ => .double
  | date _ => .date
  | dateTime _ => .dateTime
  | quoted _ => .quoted

namespace Literal

/-- The normal form of a literal. -/
def normal : Literal → Normal
  | bool b => .boolean b
  | byte n => .integer n.toInt
  | short n => .integer n.toInt
  | int n => .integer n.toInt
  | long n => .long n.toInt
  | float b => .float (Format.single.merged b.toNat)
  | double b => .double (Format.double.merged b.toNat)
  | calendar dt =>
    if dt.time.hour = 0 ∧ dt.time.minute = 0 ∧ dt.time.second = 0 ∧ dt.time.nano < 1000000 then
      .date dt.date
    else .dateTime dt.shown
  | date d => .date d
  | instant dt => .dateTime dt.shown
  | name s => .quoted s
  | text s => .quoted s
  | opaqueForm s => .quoted s

theorem isMidnight_iff (t : Time) :
    t.isMidnight = true ↔ t.hour = 0 ∧ t.minute = 0 ∧ t.second = 0 ∧ t.nano < 1000000 := by
  simp only [Time.isMidnight, Bool.and_eq_true, beq_iff_eq]
  omega

theorem normal_calendar (dt : DateTime) :
    (calendar dt).normal = if dt.time.isMidnight then .date dt.date else .dateTime dt.shown :=
  if_congr (isMidnight_iff dt.time).symm rfl rfl

theorem form_normal (l : Literal) : l.normal.form = l.form := by
  cases l with
  | calendar dt =>
    show (calendar dt).normal.form = if dt.time.isMidnight then .date else .dateTime
    rw [normal_calendar]
    split <;> rfl
  | _ => rfl

end Literal

/-! ### Texts of normal forms -/

/-- The texts of a normal form. -/
inductive Normal.Spells : Normal → List Char → Prop where
  | boolean (b : Bool) : Spells (.boolean b) (Literal.bool b).chars
  | integer (n : Int) : Spells (.integer n) (Text.integer n)
  | long (n : Int) : Spells (.long n) (Text.integer n ++ ['l'])
  | float (b : UInt32) :
    Spells (.float (Format.single.merged b.toNat)) (Layout.query.write .single b.toNat)
  | double (b : UInt64) :
    Spells (.double (Format.double.merged b.toNat)) (Layout.query.write .double b.toNat ++ ['d'])
  | date (d : Date) : Spells (.date d) d.chars
  | dateTime (dt : DateTime) : Spells (.dateTime dt.shown) dt.chars
  | quoted (s : String) : Spells (.quoted s) (quote s)

/-- The text of a literal is one of its normal form. -/
theorem Literal.spells_normal (l : Literal) : l.normal.Spells l.chars := by
  cases l with
  | bool b => exact .boolean b
  | byte n => exact .integer _
  | short n => exact .integer _
  | int n => exact .integer _
  | long n => exact .long _
  | float b => exact .float b
  | double b => exact .double b
  | calendar dt =>
    show (calendar dt).normal.Spells (if dt.time.isMidnight then dt.date.chars else dt.chars)
    rw [normal_calendar]
    split
    · exact .date _
    · exact .dateTime _
  | date d => exact .date d
  | instant dt => exact .dateTime dt
  | name s => exact .quoted s
  | text s => exact .quoted s
  | opaqueForm s => exact .quoted s

/-- Among texts of one form, those of a normal form are the same, and those of different normal
forms are different. -/
theorem Normal.Spells.eq_iff {m n : Normal} {cs ds : List Char} (hm : m.Spells cs)
    (hn : n.Spells ds) (hform : m.form = n.form) : cs = ds ↔ m = n := by
  cases hm <;> cases hn <;> try cases hform
  case boolean.boolean a b => cases a <;> cases b <;> decide
  case integer.integer a b =>
    rw [Normal.integer.injEq]
    exact ⟨integer_inj, fun h => by rw [h]⟩
  case long.long a b =>
    rw [Normal.long.injEq, List.append_left_inj]
    exact ⟨integer_inj, fun h => by rw [h]⟩
  case float.float a b =>
    rw [Normal.float.injEq]
    exact Layout.write_query_eq_iff Format.isShort_single a.toNat_lt b.toNat_lt
  case double.double a b =>
    rw [Normal.double.injEq, List.append_left_inj]
    exact Layout.write_query_eq_iff Format.isShort_double a.toNat_lt b.toNat_lt
  case date.date d e =>
    rw [Normal.date.injEq]
    exact ⟨Date.chars_inj, fun h => by rw [h]⟩
  case dateTime.dateTime a b =>
    rw [Normal.dateTime.injEq]
    exact DateTime.chars_eq_iff a b
  case quoted.quoted s t =>
    rw [Normal.quoted.injEq, quote, quote, List.append_left_inj, List.append_right_inj,
      String.toList_inj]

namespace Literal

/-- **Literals with the same text**: two literals have the same text if and only if they have the
same normal form, and then the text has one form. -/
theorem encode_eq_iff (a b : Literal) :
    (a.encode = b.encode ↔ a.normal = b.normal) ∧ (a.encode = b.encode → a.form = b.form) := by
  have hchars : a.encode = b.encode ↔ a.chars = b.chars := String.ofList_inj
  have hforms : a.chars = b.chars → a.form = b.form := by
    intro h
    rw [← formOf_chars, ← formOf_chars, h]
  rw [hchars]
  refine ⟨⟨fun h => ?_, fun h => ?_⟩, hforms⟩
  · apply (a.spells_normal.eq_iff b.spells_normal _).mp h
    rw [form_normal, form_normal, hforms h]
  · apply (a.spells_normal.eq_iff b.spells_normal _).mpr h
    rw [h]

end Literal

end QueryTree
