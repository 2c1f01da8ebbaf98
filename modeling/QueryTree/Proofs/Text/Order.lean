import Mathlib.Data.List.Perm.Basic
import QueryTree.Text.Bytes

/-!
# The order of texts

The bytes of a text determine it, so the order of the bytes is a strict linear order of texts, and
so is the order of lists of names. `Text.precedes` and `Text.namesPrecede` have their laws here, in
the form in which sorting asks for them.
-/

namespace QueryTree

/-- A sorted list does not depend on the order of what was sorted. -/
theorem mergeSort_eq_of_perm {α : Type} {le : α → α → Bool}
    (trans : ∀ a b c, le a b = true → le b c = true → le a c = true)
    (total : ∀ a b, (le a b || le b a) = true)
    (antisymm : ∀ a b, le a b = true → le b a = true → a = b) {l l' : List α} (h : l.Perm l') :
    l.mergeSort le = l'.mergeSort le := by
  apply List.Perm.eq_of_pairwise (fun a b _ _ => antisymm a b)
    (List.pairwise_mergeSort trans total l) (List.pairwise_mergeSort trans total l')
  exact (List.mergeSort_perm l le).trans (h.trans (List.mergeSort_perm l' le).symm)

namespace Text

variable {a b : String}

theorem bytes_inj (h : bytes a = bytes b) : a = b :=
  String.toByteArray_inj.mp (ByteArray.ext (Array.toList_inj.mp h))

theorem precedes_iff : precedes a b = true ↔ bytes a < bytes b := decide_eq_true_iff

theorem not_precedes_iff : (!precedes b a) = true ↔ bytes a ≤ bytes b := by
  rw [Bool.not_eq_true', ← Bool.not_eq_true, precedes_iff, List.not_lt]

/-! ### The order that sorting uses -/

theorem not_precedes_trans (a b c : String) (hab : (!precedes b a) = true)
    (hbc : (!precedes c b) = true) : (!precedes c a) = true := by
  rw [not_precedes_iff] at hab hbc ⊢
  exact List.le_trans hab hbc

theorem not_precedes_total (a b : String) : (!precedes b a || !precedes a b) = true := by
  rw [Bool.or_eq_true, not_precedes_iff, not_precedes_iff]
  exact List.le_total _ _

theorem not_precedes_antisymm (a b : String) (hab : (!precedes b a) = true)
    (hba : (!precedes a b) = true) : a = b := by
  rw [not_precedes_iff] at hab hba
  exact bytes_inj (List.le_antisymm hab hba)

/-- Different texts in the order that sorting uses are in the strict order. -/
theorem precedes_of_ne (h : (!precedes b a) = true) (hne : a ≠ b) : precedes a b = true := by
  by_contra hab
  exact hne (not_precedes_antisymm a b h (by simpa using hab))

/-! ### Lists of names -/

variable {as bs : List String}

theorem namesPrecede_iff : namesPrecede as bs = true ↔ as.map bytes < bs.map bytes := by
  fun_induction namesPrecede as bs with
  | case1 as => simp
  | case2 b bs => simp
  | case3 a as b bs ih =>
    rw [Bool.or_eq_true, Bool.and_eq_true, ih, precedes_iff, beq_iff_eq, List.map_cons,
      List.map_cons, List.cons_lt_cons_iff]
    exact or_congr_right (and_congr_left' ⟨congrArg bytes, bytes_inj⟩)

theorem not_namesPrecede_iff :
    (!namesPrecede bs as) = true ↔ as.map bytes ≤ bs.map bytes := by
  rw [Bool.not_eq_true', ← Bool.not_eq_true, namesPrecede_iff, List.not_lt]

theorem not_namesPrecede_trans (as bs cs : List String) (hab : (!namesPrecede bs as) = true)
    (hbc : (!namesPrecede cs bs) = true) : (!namesPrecede cs as) = true := by
  rw [not_namesPrecede_iff] at hab hbc ⊢
  exact List.le_trans hab hbc

theorem not_namesPrecede_total (as bs : List String) :
    (!namesPrecede bs as || !namesPrecede as bs) = true := by
  rw [Bool.or_eq_true, not_namesPrecede_iff, not_namesPrecede_iff]
  exact List.le_total _ _

theorem not_namesPrecede_antisymm (as bs : List String) (hab : (!namesPrecede bs as) = true)
    (hba : (!namesPrecede as bs) = true) : as = bs := by
  rw [not_namesPrecede_iff] at hab hba
  exact List.map_injective_iff.mpr (fun _ _ => bytes_inj) (List.le_antisymm hab hba)

theorem namesPrecede_of_ne (h : (!namesPrecede bs as) = true) (hne : as ≠ bs) :
    namesPrecede as bs = true := by
  by_contra hab
  exact hne (not_namesPrecede_antisymm as bs h (by simpa using hab))

theorem namesPrecede_asymm (h : namesPrecede as bs = true) : namesPrecede bs as = false := by
  rw [← Bool.not_eq_true', not_namesPrecede_iff]
  exact List.le_of_lt (namesPrecede_iff.mp h)

/-- What two lists begin with makes no difference. -/
theorem namesPrecede_append (cs : List String) :
    namesPrecede (cs ++ as) (cs ++ bs) = namesPrecede as bs := by
  induction cs with
  | nil => rfl
  | cons c cs ih =>
    have hirrefl : precedes c c = false := by
      rw [← Bool.not_eq_true, precedes_iff]
      exact List.lt_irrefl _
    rw [List.cons_append, List.cons_append, namesPrecede, hirrefl, ih]
    simp

end Text

end QueryTree
