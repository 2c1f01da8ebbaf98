import Mathlib.Algebra.Ring.Int.Defs
import QueryTree.Literal.Encoding
import QueryTree.Proofs.Document.ByArgument
import QueryTree.Proofs.Yaml.Integer

/-!
# Integers in documents

An integer of a document becomes a literal of the same integer or none at all, and its text in a
query is its digits (`integers_kept`). The kinds of integers differ in their width and in the mark
behind the digits; `IntegerKind` lists them, and `Literal.integer?` is the view of a literal as an
integer of a kind.
-/

namespace QueryTree

open QueryTree.Yaml (Value)

/-- The kinds of integers. -/
inductive IntegerKind where
  | byte
  | short
  | int
  | long
  deriving DecidableEq

namespace IntegerKind

/-- The name of a kind in documents. -/
def key : IntegerKind → String
  | byte => "byte"
  | short => "short"
  | int => "int"
  | long => "long"

/-- The width of a kind. -/
def bits : IntegerKind → Nat
  | byte => 8
  | short => 16
  | int => 32
  | long => 64

/-- What stands behind the digits in a query. -/
def mark : IntegerKind → List Char
  | long => ['l']
  | _ => []

/-- The integer has a place in the width of the kind. -/
def Holds (k : IntegerKind) (n : Int) : Prop := -2 ^ (k.bits - 1) ≤ n ∧ n < 2 ^ (k.bits - 1)

instance (k : IntegerKind) (n : Int) : Decidable (k.Holds n) :=
  inferInstanceAs (Decidable (_ ∧ _))

/-- The kind of an integer without the name of a kind. -/
def ofPlain (n : Int) : IntegerKind := if int.Holds n then int else long

end IntegerKind

/-! ### Literals as integers -/

namespace Literal

/-- The integer that a literal is, with its kind. -/
def integer? : Literal → Option (IntegerKind × Int)
  | byte n => some (.byte, n.toInt)
  | short n => some (.short, n.toInt)
  | int n => some (.int, n.toInt)
  | long n => some (.long, n.toInt)
  | _ => none

variable {k : IntegerKind} {n : Int} {l : Literal}

/-- An integer is written with its digits and the mark of its kind. -/
theorem chars_of_integer? (h : l.integer? = some (k, n)) :
    l.chars = Text.integer n ++ k.mark := by
  cases l <;> cases h
  case long => rfl
  all_goals exact (List.append_nil _).symm

/-- Exactly the integers within the width of a kind are literals of the kind. -/
theorem exists_integer?_iff : (∃ l : Literal, l.integer? = some (k, n)) ↔ k.Holds n := by
  constructor
  · rintro ⟨l, h⟩
    cases l with
    | byte m => cases h; exact ⟨m.le_toInt, m.toInt_lt⟩
    | short m => cases h; exact ⟨m.le_toInt, m.toInt_lt⟩
    | int m => cases h; exact ⟨m.le_toInt, m.toInt_lt⟩
    | long m => cases h; exact ⟨m.le_toInt, m.toInt_lt⟩
    | _ => cases h
  · rintro ⟨hlow, hhigh⟩
    cases k with
    | byte => exact ⟨.byte (.ofInt n), by rw [integer?, Int8.toInt_ofInt_of_le hlow hhigh]⟩
    | short => exact ⟨.short (.ofInt n), by rw [integer?, Int16.toInt_ofInt_of_le hlow hhigh]⟩
    | int => exact ⟨.int (.ofInt n), by rw [integer?, Int32.toInt_ofInt_of_le hlow hhigh]⟩
    | long => exact ⟨.long (.ofInt n), by rw [integer?, Int64.toInt_ofInt_of_le hlow hhigh]⟩

/-! ### Reading integers -/

/-- Under the name of a kind of integers an integer is read as itself, and nothing else is read. -/
theorem ofTyped_integer_eq_ok_iff {v : Value} :
    ofTyped k.key v = .ok l ↔ ∃ n, v.untagged = .int n ∧ l.integer? = some (k, n) := by
  constructor
  · intro h
    cases k with
    | byte =>
      obtain ⟨m, hv, rfl⟩ := ofTyped_byte_eq_ok_iff.mp h
      exact ⟨_, hv, rfl⟩
    | short =>
      obtain ⟨m, hv, rfl⟩ := ofTyped_short_eq_ok_iff.mp h
      exact ⟨_, hv, rfl⟩
    | int =>
      obtain ⟨m, hv, rfl⟩ := ofTyped_int_eq_ok_iff.mp h
      exact ⟨_, hv, rfl⟩
    | long =>
      obtain ⟨m, hv, rfl⟩ := ofTyped_long_eq_ok_iff.mp h
      exact ⟨_, hv, rfl⟩
  · rintro ⟨n, hv, hl⟩
    cases l with
    | byte m => cases hl; exact ofTyped_byte_eq_ok_iff.mpr ⟨m, hv, rfl⟩
    | short m => cases hl; exact ofTyped_short_eq_ok_iff.mpr ⟨m, hv, rfl⟩
    | int m => cases hl; exact ofTyped_int_eq_ok_iff.mpr ⟨m, hv, rfl⟩
    | long m => cases hl; exact ofTyped_long_eq_ok_iff.mpr ⟨m, hv, rfl⟩
    | _ => cases hl

theorem integerOf_eq_error {part : NodePart} {least greatest : Int} {v : Value} {f : Fault}
    (h : integerOf part least greatest v = .error f) : f = .here part .notInteger := by
  unfold integerOf at h
  split at h
  · split at h
    · cases h
    · exact (Except.error.inj h).symm
  · exact (Except.error.inj h).symm

/-- What is not read under the name of a kind of integers is the fault of the argument. -/
theorem ofTyped_integer_eq_error {v : Value} (h : ∀ l, ofTyped k.key v ≠ .ok l) :
    ofTyped k.key v = .error (.here (.typedArgument k.key) .notInteger) := by
  cases hv : ofTyped k.key v with
  | ok l => exact absurd hv (h l)
  | error f =>
    cases k <;> rw [integerOf_eq_error (map_eq_error_iff.mp hv)]

/-- An integer without the name of a kind takes 32 bits if they hold it, and otherwise 64. -/
theorem exists_ofValue_int (h : IntegerKind.long.Holds n) :
    ∃ l, ofValue (.int n) = .ok l ∧ l.integer? = some (.ofPlain n, n) := by
  have h64 : Int64.minValue.toInt ≤ n ∧ n ≤ Int64.maxValue.toInt :=
    ⟨h.1, Int.le_of_lt_add_one h.2⟩
  by_cases h32 : IntegerKind.int.Holds n
  case pos =>
    refine ⟨.int (.ofInt n), ?_, ?_⟩
    · rw [ofValue, if_pos ⟨h32.1, Int.le_of_lt_add_one h32.2⟩]
    · rw [IntegerKind.ofPlain, if_pos h32, integer?, Int32.toInt_ofInt_of_le h32.1 h32.2]
  case neg =>
    refine ⟨.long (.ofInt n), ?_, ?_⟩
    · rw [ofValue, if_neg, if_pos h64]
      rintro ⟨hlow, hhigh⟩
      exact h32 ⟨hlow, Int.lt_add_one_of_le hhigh⟩
    · rw [IntegerKind.ofPlain, if_neg h32, integer?, Int64.toInt_ofInt_of_le h.1 h.2]

theorem ofValue_int_eq_error (h : 2 ^ 63 ≤ n) :
    ofValue (.int n) = .error (.here .argument (.tooLarge n)) := by
  have hint : Int32.maxValue.toInt = 2 ^ 31 - 1 := by decide
  have hlong : Int64.maxValue.toInt = 2 ^ 63 - 1 := by decide
  have h32 : ¬(Int32.minValue.toInt ≤ n ∧ n ≤ Int32.maxValue.toInt) := by omega
  have h64 : ¬(Int64.minValue.toInt ≤ n ∧ n ≤ Int64.maxValue.toInt) := by omega
  rw [ofValue, if_neg h32, if_neg h64]
  rfl

end Literal

/-! ### Constraints with integers -/

namespace Yaml.Value

/-- The value is accepted as the constraint with the integer, in its kind and with its digits. -/
def AcceptedWith (v : Value) (selector : String) (comparison : Comparison) (k : IntegerKind)
    (n : Int) : Prop :=
  ∃ l, Tree.ofValue v = .ok (.constraint selector comparison l) ∧ l.integer? = some (k, n) ∧
    l.encode = String.ofList (Text.integer n ++ k.mark)

namespace HasArgument

variable {v key w : Value} {selector : String} {comparison : Comparison} {k : IntegerKind} {n : Int}

theorem acceptedWith {argument w : Value} {l : Literal}
    (h : v.HasArgument selector comparison argument) (hw : argument.reread = .ok w)
    (hl : Literal.ofValue w = .ok l) (hint : l.integer? = some (k, n)) :
    v.AcceptedWith selector comparison k n :=
  ⟨l, h.accepted hw hl, hint, by rw [Literal.encode, Literal.chars_of_integer? hint]⟩

theorem plain_accepted (h : v.HasArgument selector comparison (.int n))
    (hn : IntegerKind.long.Holds n) : v.AcceptedWith selector comparison (.ofPlain n) n := by
  obtain ⟨l, hl, hint⟩ := Literal.exists_ofValue_int hn
  exact h.acceptedWith rfl hl hint

theorem plain_refused (h : v.HasArgument selector comparison (.int n)) (hn : 2 ^ 63 ≤ n) :
    v.RefusedWith ".argument" :=
  h.refused rfl (Literal.ofValue_int_eq_error hn)

theorem typed_accepted (h : v.HasArgument selector comparison (.mapping [(key, w)]))
    (hkey : key.untagged = .text k.key) (hw : w.untagged = .int n) (hn : k.Holds n) :
    v.AcceptedWith selector comparison k n := by
  obtain ⟨key', w', hreread, hsame⟩ := exists_reread_typed hkey (.inl ⟨n, hw⟩)
  obtain ⟨l, hint⟩ := Literal.exists_integer?_iff.mpr hn
  have hl := Literal.ofTyped_integer_eq_ok_iff.mpr ⟨n, hw, hint⟩
  exact h.acceptedWith hreread (hsame.trans hl) hint

/-- A number that is not among the integers of the kind is the fault of the argument. -/
theorem typed_refused (h : v.HasArgument selector comparison (.mapping [(key, w)]))
    (hkey : key.untagged = .text k.key)
    (hw : (∃ n, w.untagged = .int n ∧ ¬k.Holds n) ∨ ∃ bits, w.untagged = .float bits) :
    v.RefusedWith (".argument." ++ k.key) := by
  obtain ⟨key', w', hreread, hsame⟩ :=
    exists_reread_typed hkey (hw.imp_left fun ⟨n, hn, _⟩ => ⟨n, hn⟩)
  refine h.refused hreread (hsame.trans (Literal.ofTyped_integer_eq_error fun l hl => ?_))
  obtain ⟨m, hm, hint⟩ := Literal.ofTyped_integer_eq_ok_iff.mp hl
  rcases hw with ⟨n, hn, hout⟩ | ⟨bits, hbits⟩
  · cases hm.symm.trans hn
    exact hout (Literal.exists_integer?_iff.mp ⟨l, hint⟩)
  · cases hm.symm.trans hbits

end HasArgument

end Yaml.Value

/-! ### The result -/

/-- **Integers are kept**: an integer of a document is the literal of the same integer, in the kind
that its size or the document gives it and with its digits in a query, or the argument is refused
for being beyond the kind; a floating point number is never taken for an integer. The digits of the
integer are the scalar of the integer again. -/
theorem integers_kept {n : Int} (hlow : -2 ^ 63 ≤ n) (hhigh : n < 2 ^ 64) :
    (∀ v selector comparison, Value.HasArgument v selector comparison (.int n) →
      (n < 2 ^ 63 → v.AcceptedWith selector comparison (.ofPlain n) n) ∧
        (2 ^ 63 ≤ n → v.RefusedWith ".argument")) ∧
      (∀ v selector comparison key w, ∀ k : IntegerKind,
        Value.HasArgument v selector comparison (.mapping [(key, w)]) →
          key.untagged = .text k.key →
            (w.untagged = .int n → k.Holds n → v.AcceptedWith selector comparison k n) ∧
              (w.untagged = .int n → ¬k.Holds n → v.RefusedWith (".argument." ++ k.key)) ∧
                ∀ bits, w.untagged = .float bits → v.RefusedWith (".argument." ++ k.key)) ∧
        Yaml.plainValue (String.ofList (Text.integer n)) = .ok (.int n) := by
  refine ⟨fun v selector comparison h => ⟨fun hn => h.plain_accepted ⟨hlow, hn⟩, h.plain_refused⟩,
    fun v selector comparison key w k h hkey => ⟨h.typed_accepted hkey, fun hw hn => ?_,
      fun bits hbits => ?_⟩, Yaml.plainValue_integer hlow hhigh⟩
  · exact h.typed_refused hkey (.inl ⟨n, hw, hn⟩)
  · exact h.typed_refused hkey (.inr ⟨bits, hbits⟩)

/-- At both sides of the widths: `3000000000` is a long integer, and no integer of 32 bits. -/
theorem integers_kept_of_beyond_int :
    (Value.mapping [(.text "selector", .text "a"), (.text "comparison", .text "eq"),
        (.text "argument", .int 3000000000)]).AcceptedWith "a" .equals .long 3000000000 ∧
      (Value.mapping [(.text "selector", .text "a"), (.text "comparison", .text "eq"),
        (.text "argument", .mapping [(.text "int", .int 3000000000)])]).RefusedWith
          ".argument.int" ∧
        Yaml.plainValue "3000000000" = .ok (.int 3000000000) := by
  obtain ⟨hplain, htyped, hdigits⟩ := integers_kept (n := 3000000000) (by decide) (by decide)
  refine ⟨(hplain _ "a" .equals ?_).1 (by decide),
    (htyped _ "a" .equals (.text "int") (.int 3000000000) .int ?_ rfl).2.1 rfl (by decide), hdigits⟩
  · exact Value.hasArgument_mapping _ (by decide) (by decide)
  · exact Value.hasArgument_mapping _ (by decide) (by decide)

end QueryTree
