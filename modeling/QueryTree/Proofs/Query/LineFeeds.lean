import Mathlib.Algebra.GroupWithZero.Nat
import QueryTree.Proofs.Literal.Form
import QueryTree.Proofs.Query.Token

/-!
# Line feeds in queries

Selectors and quoted texts are written as they are, so a query has the line feeds that these have,
and no others (`Tree.lineFeeds_render`).
-/

namespace QueryTree

open QueryTree.Text

/-! ### Counting line feeds -/

/-- The number of line feeds in a text. -/
def Text.lineFeeds (s : String) : Nat := s.toList.count '\n'

@[simp]
theorem Text.lineFeeds_append (s t : String) : lineFeeds (s ++ t) = lineFeeds s + lineFeeds t := by
  rw [lineFeeds, String.toList_append, List.count_append]
  rfl

theorem Text.lineFeeds_eq_zero_iff {s : String} : lineFeeds s = 0 ↔ '\n' ∉ s.toList :=
  List.count_eq_zero

@[simp]
theorem Connective.lineFeeds_sign (c : Connective) : lineFeeds c.sign = 0 := by
  cases c <;> rfl

@[simp]
theorem Comparison.lineFeeds_sign (c : Comparison) : lineFeeds c.sign = 0 := by
  cases c <;> rfl

/-! ### Texts that are shown as they are -/

/-- A literal that is not quoted has no line feed, and a quoted one those between its quotes. -/
theorem Literal.lineFeeds_encode (a : Literal) :
    lineFeeds a.encode = (a.inner?.toList.map lineFeeds).sum := by
  rw [encode, lineFeeds, String.toList_ofList]
  cases hinner : a.inner? with
  | none => exact List.count_eq_zero.mpr ((uses_of_inner? hinner).notMem rfl (by decide))
  | some s =>
    rw [chars_of_inner? hinner, quote, List.count_append, List.count_append]
    simp [lineFeeds]

namespace Tree

/-- The texts that a query shows as they are: the selectors, and what stands between quotes. -/
def shownTexts : Tree → List String
  | and left right => left.shownTexts ++ right.shownTexts
  | or left right => left.shownTexts ++ right.shownTexts
  | constraint selector _ argument => selector :: argument.inner?.toList

theorem lineFeeds_tokens (t : Tree) (guarded : Bool) :
    lineFeeds (Token.texts id (t.tokens constraintText guarded)) =
      (t.shownTexts.map lineFeeds).sum := by
  have hopening : lineFeeds "(" = 0 := rfl
  have hclosing : lineFeeds ")" = 0 := rfl
  induction t generalizing guarded with
  | and l r ihl ihr => simp [shownTexts, Token.text, ihl, ihr]
  | or l r ihl ihr =>
    cases guarded <;>
      simp [tokens_or, shownTexts, Token.text, ihl, ihr, hopening, hclosing]
  | constraint s c a => simp [constraintText, shownTexts, Token.text, a.lineFeeds_encode]

/-- **The line feeds of a query** are those of its selectors and its quoted texts. -/
theorem lineFeeds_render (t : Tree) : lineFeeds t.render = (t.shownTexts.map lineFeeds).sum := by
  rw [render_eq_texts_tokens, lineFeeds_tokens]

/-- No text that the query shows as it is has a line feed. -/
def OnOneLine (t : Tree) : Prop := ∀ s ∈ t.shownTexts, '\n' ∉ s.toList

instance (t : Tree) : Decidable t.OnOneLine :=
  inferInstanceAs (Decidable (∀ s ∈ t.shownTexts, '\n' ∉ s.toList))

theorem notMem_render_iff (t : Tree) : '\n' ∉ t.render.toList ↔ t.OnOneLine := by
  rw [← lineFeeds_eq_zero_iff, lineFeeds_render, List.sum_eq_zero_iff_forall_eq_nat]
  simp [OnOneLine, lineFeeds_eq_zero_iff]

end Tree

end QueryTree
