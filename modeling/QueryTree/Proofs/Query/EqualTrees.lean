import Mathlib.Data.List.Forall2
import QueryTree.Proofs.Literal.Form
import QueryTree.Proofs.Tree.Equality

/-!
# Queries of equal trees

Equality of trees is equality of what their literals are, but a query shows how they are written. So
trees that match have the same tokens up to their literals (`Matched.forall₂_tokens`), and as a
literal ends in one place only, no difference at one of them is made up for at another one
(`Matched.not_parted_of_chars`). The queries of equal trees therefore differ at the parted literals
and nowhere else (`renders_alike_of_same`).
-/

namespace QueryTree

open QueryTree.Calendar QueryTree.Text

variable {α : Type}

/-- Tokens that differ in nothing but the labels of constraints, and these are related. -/
inductive Token.Related (R : α → α → Prop) : Token α → Token α → Prop where
  | opening : Related R .opening .opening
  | closing : Related R .closing .closing
  | sign (c : Connective) : Related R (.sign c) (.sign c)
  | constraint {a b : α} : R a b → Related R (.constraint a) (.constraint b)

theorem Token.eq_of_related {t u : Token α} (h : Related Eq t u) : t = u := by
  cases h with
  | opening => rfl
  | closing => rfl
  | sign c => rfl
  | constraint h => rw [h]

/-- A constraint with its parts. -/
structure Leaf where
  selector : String
  comparison : Comparison
  argument : Literal

namespace Leaf

/-- The text of a constraint. -/
def text (l : Leaf) : String := Tree.constraintText l.selector l.comparison l.argument

/-- Constraints that show the same, except possibly for literals that are parted. -/
structure Agree (l m : Leaf) : Prop where
  selector : l.selector = m.selector
  comparison : l.comparison = m.comparison
  argument : l.argument.encode = m.argument.encode ∨ Literal.Parted l.argument m.argument

end Leaf

/-! ### Literals in a query -/

namespace Literal

variable {a b : Literal}

/-- Quoted texts are never parted. -/
theorem Parted.inner? (h : Parted a b) : a.inner? = none ∧ b.inner? = none := by
  cases h <;> exact ⟨rfl, rfl⟩

theorem Equated.agree (h : Equated a b) : a.encode = b.encode ∨ Parted a b := by
  rw [encode_eq_iff_not_parted h]
  exact (Classical.em _).symm

/-- Parted literals cannot be taken for each other, whatever stands behind them. -/
theorem Equated.not_parted_of_chars (h : Equated a b) {x y : List Char} (hx : Stops isBehind x)
    (hy : Stops isBehind y) (heq : a.chars ++ x = b.chars ++ y) : ¬ Parted a b ∧ x = y := by
  rcases h.agree with htext | hparted
  · have hchars : a.chars = b.chars := String.ofList_inj.mp htext
    rw [hchars] at heq
    exact ⟨(encode_eq_iff_not_parted h).mp htext, List.append_cancel_left heq⟩
  · obtain ⟨ha, hb⟩ := hparted.inner?
    obtain ⟨hchars, hxy⟩ :=
      append_inj_of_stops (isBehind_of_mem ha) (isBehind_of_mem hb) hx hy heq
    exact ⟨(encode_eq_iff_not_parted h).mp (congrArg String.ofList hchars), hxy⟩

end Literal

namespace Tree

/-! ### Trees that match -/

/-- Trees that match have the same connectives. -/
theorem Matched.hasConjunction_eq {R : Literal → Literal → Prop} {t u : Tree} (h : Matched R t u) :
    t.hasConjunction = u.hasConjunction := by
  induction h with
  | and _ _ _ _ => rfl
  | or _ _ ihl ihr => rw [hasConjunction, hasConjunction, ihl, ihr]
  | constraint _ _ _ => rfl

/-- **Trees that match have the same tokens** up to what is related. -/
theorem Matched.forall₂_tokens {R : Literal → Literal → Prop} {S : α → α → Prop}
    {label : String → Comparison → Literal → α}
    (hS : ∀ s c {a b}, R a b → S (label s c a) (label s c b)) {t u : Tree} (h : Matched R t u)
    (guarded : Bool) :
    List.Forall₂ (Token.Related S) (t.tokens label guarded) (u.tokens label guarded) := by
  induction h generalizing guarded with
  | and hl hr ihl ihr =>
    rw [tokens_and, tokens_and, hl.hasConjunction_eq]
    exact List.rel_append (ihl _) (.cons (.sign _) (ihr _))
  | or hl hr ihl ihr =>
    rw [tokens_or, tokens_or, hl.hasConjunction_eq]
    cases guarded with
    | true =>
      exact .cons .opening
        (List.rel_append (List.rel_append (ihl _) (.cons (.sign _) (ihr _))) (.cons .closing .nil))
    | false => exact List.rel_append (ihl _) (.cons (.sign _) (ihr _))
  | constraint s c h => exact .cons (.constraint (hS s c h)) .nil

/-- If their literals have the same texts, so have they. -/
theorem Matched.render_eq {t u : Tree} (h : Matched (fun a b => a.encode = b.encode) t u) :
    t.render = u.render := by
  have htokens : List.Forall₂ (Token.Related Eq) (t.tokens constraintText false)
      (u.tokens constraintText false) :=
    h.forall₂_tokens (fun s c a b hab => by rw [constraintText, constraintText, hab]) false
  have heq : List.Forall₂ Eq (t.tokens constraintText false) (u.tokens constraintText false) :=
    htokens.imp fun _ _ => Token.eq_of_related
  rw [List.forall₂_eq_eq_eq] at heq
  rw [render_eq_texts_tokens, render_eq_texts_tokens, heq]

/-! ### Where queries differ -/

/-- The characters of a tree that is written when the flag is `guarded`. -/
def queryChars (t : Tree) (guarded : Bool) : List Char :=
  (Token.texts id (t.tokens constraintText guarded)).toList

theorem queryChars_constraint (s : String) (c : Comparison) (a : Literal) (guarded : Bool) :
    (constraint s c a).queryChars guarded = s.toList ++ (c.sign.toList ++ a.chars) := by
  simp [queryChars, Token.text, constraintText, Literal.encode]

theorem queryChars_and (l r : Tree) (guarded : Bool) :
    (and l r).queryChars guarded =
      l.queryChars true ++ ',' :: r.queryChars (!l.hasConjunction) := by
  simp [queryChars, Token.text, Connective.sign]

theorem queryChars_or_true (l r : Tree) :
    (or l r).queryChars true =
      '(' :: (l.queryChars true ++ ';' :: (r.queryChars (!l.hasConjunction) ++ [')'])) := by
  simp [queryChars, tokens_or, Token.text, Connective.sign]

theorem queryChars_or_false (l r : Tree) :
    (or l r).queryChars false = l.queryChars false ++ ';' :: r.queryChars false := by
  simp [queryChars, tokens_or, Token.text, Connective.sign]

/-- **Queries of equal trees are read side by side**: if they agree, with something behind each,
then no literals are parted, and what is behind them agrees. -/
theorem Matched.not_parted_of_chars {t u : Tree} (h : Matched Literal.Equated t u) {guarded : Bool}
    {x y : List Char} (hx : Stops Literal.isBehind x) (hy : Stops Literal.isBehind y)
    (heq : t.queryChars guarded ++ x = u.queryChars guarded ++ y) :
    Matched (fun a b => ¬ Literal.Parted a b) t u ∧ x = y := by
  induction h generalizing guarded x y with
  | @and l l' r r' hl hr ihl ihr =>
    rw [queryChars_and, queryChars_and, ← hl.hasConjunction_eq, List.append_assoc,
      List.append_assoc] at heq
    obtain ⟨hl', hrest⟩ := ihl (stops_cons rfl _) (stops_cons rfl _) heq
    obtain ⟨hr', hxy⟩ := ihr hx hy (List.cons.inj hrest).2
    exact ⟨.and hl' hr', hxy⟩
  | @or l l' r r' hl hr ihl ihr =>
    cases guarded with
    | true =>
      simp only [queryChars_or_true, ← hl.hasConjunction_eq, List.cons_append, List.append_assoc,
        List.nil_append] at heq
      obtain ⟨hl', hrest⟩ := ihl (stops_cons rfl _) (stops_cons rfl _) (List.cons.inj heq).2
      obtain ⟨hr', hclosing⟩ :=
        ihr (stops_cons rfl _) (stops_cons rfl _) (List.cons.inj hrest).2
      exact ⟨.or hl' hr', (List.cons.inj hclosing).2⟩
    | false =>
      rw [queryChars_or_false, queryChars_or_false, List.append_assoc, List.append_assoc] at heq
      obtain ⟨hl', hrest⟩ := ihl (stops_cons rfl _) (stops_cons rfl _) heq
      obtain ⟨hr', hxy⟩ := ihr hx hy (List.cons.inj hrest).2
      exact ⟨.or hl' hr', hxy⟩
  | @constraint s c a b h =>
    rw [queryChars_constraint, queryChars_constraint, List.append_assoc, List.append_assoc,
      List.append_assoc, List.append_assoc] at heq
    obtain ⟨hparted, hxy⟩ := h.not_parted_of_chars hx hy
      (List.append_cancel_left (List.append_cancel_left heq))
    exact ⟨.constraint s c hparted, hxy⟩

theorem render_eq_iff_not_parted {t u : Tree} (h : Matched Literal.Equated t u) :
    t.render = u.render ↔ RelatedAt (fun a b => ¬ Literal.Parted a b) t u := by
  rw [← h.iff_relatedAt]
  constructor
  · intro hrender
    rw [render_eq_texts_tokens, render_eq_texts_tokens] at hrender
    have hchars : t.queryChars false ++ [] = u.queryChars false ++ [] := by
      rw [queryChars, queryChars, hrender]
    exact (h.not_parted_of_chars stops_nil stops_nil hchars).1
  · intro hparted
    apply Matched.render_eq
    rw [h.iff_relatedAt] at hparted ⊢
    intro p s c a b ha hb
    have hequated : Literal.Equated a b := h.iff_relatedAt.mp h p s c a b ha hb
    exact (Literal.encode_eq_iff_not_parted hequated).mpr (hparted p s c a b ha hb)

/-! ### The main result -/

/-- **Equal trees have queries that look alike**: the same tokens in the same order, with the same
selectors, comparisons and literals, except possibly for literals at the same place that are the two
zeros of a format or one instant at two offsets. If there are none the queries are the same, and
otherwise they are not. -/
theorem renders_alike_of_same {t u : Tree} (h : t.same u = true) :
    t.render = Token.texts Leaf.text (t.tokens Leaf.mk false) ∧
      u.render = Token.texts Leaf.text (u.tokens Leaf.mk false) ∧
      List.Forall₂ (Token.Related Leaf.Agree) (t.tokens Leaf.mk false)
        (u.tokens Leaf.mk false) ∧
      (t.render ≠ u.render ↔ ∃ p s c a b, t.at? p = some (constraint s c a) ∧
        u.at? p = some (constraint s c b) ∧ Literal.Parted a b) := by
  have hmatched : Matched Literal.Equated t u := same_iff_matched.mp h
  have htexts : ∀ v : Tree, v.render = Token.texts Leaf.text (v.tokens Leaf.mk false) :=
    render_eq_texts Leaf.mk fun _ _ _ => rfl
  refine ⟨htexts t, htexts u,
    hmatched.forall₂_tokens (fun s c a b hab => ⟨rfl, rfl, hab.agree⟩) false, ?_⟩
  rw [ne_eq, render_eq_iff_not_parted hmatched]
  simp only [RelatedAt, not_forall, not_not, exists_prop]

/-- A new year at two offsets and the zeros of both signs: at either place the texts differ, and the
parentheses are the same. -/
theorem renders_alike_of_same_at_offsets :
    let evening : DateTime :=
      ⟨(Date.of? 2023 12 31).get rfl, (Time.of? 23 0 0 0).get rfl, -3600, by decide, by decide⟩
    let midnight : DateTime :=
      ⟨(Date.of? 2024 1 1).get rfl, (Time.of? 0 0 0 0).get rfl, 0, by decide, by decide⟩
    let both (date : DateTime) (bits : UInt64) : Tree :=
      ((constraint "open" .equals (.bool true)).or (constraint "from" .equals (.calendar date))).and
        (constraint "sum" .notEquals (.double bits))
    (both evening 0).same (both midnight 0x8000000000000000) = true ∧
      List.Forall₂ (Token.Related Leaf.Agree) ((both evening 0).tokens Leaf.mk false)
        ((both midnight 0x8000000000000000).tokens Leaf.mk false) ∧
      (both evening 0).render = "(open==true;from==2023-12-31T23:00:00.000-01:00),sum!=0.0d" ∧
      (both midnight 0x8000000000000000).render = "(open==true;from==2024-01-01),sum!=-0.0d" ∧
      (both evening 0).render ≠ (both midnight 0).render ∧
      (both midnight 0).render ≠ (both midnight 0x8000000000000000).render := by
  intro evening midnight both
  have h : (both evening 0).same (both midnight 0x8000000000000000) = true := by decide +kernel
  have hdate : (both evening 0).same (both midnight 0) = true := by decide +kernel
  have hzero : (both midnight 0).same (both midnight 0x8000000000000000) = true := by
    decide +kernel
  refine ⟨h, (renders_alike_of_same h).2.2.1, by decide +kernel, by decide +kernel,
    (renders_alike_of_same hdate).2.2.2.mpr ?_, (renders_alike_of_same hzero).2.2.2.mpr ?_⟩
  · exact ⟨[.left, .right], _, _, _, _, rfl, rfl, .calendar (by decide +kernel) (by decide)⟩
  · exact ⟨[.right], _, _, _, _, rfl, rfl, .double (.inl ⟨rfl, rfl⟩)⟩

end Tree

end QueryTree
