import QueryTree.Proofs.Query.Parentheses
import QueryTree.Proofs.Query.ReadingBack

/-!
# Nesting in another way

What is seen of the way in which connectives are nested (`render_reassociated`). Disjunctions with
no conjunction above them are written side by side, so their nesting is not seen at all. Three trees
joined by conjunctions are written with the same constraints and signs either way, but the nesting
to the right may have more parentheses: the second tree is the left one of a conjunction there, and
for the third one no conjunction has been finished before the second.
-/

namespace QueryTree

variable {α : Type}

/-! ### Counting parentheses -/

namespace Token

/-- The number of parentheses. -/
def parentheses (ts : List (Token α)) : Nat := ts.countP isParenthesis

@[simp]
theorem parentheses_append (ts us : List (Token α)) :
    parentheses (ts ++ us) = parentheses ts + parentheses us :=
  List.countP_append

@[simp]
theorem parentheses_opening (ts : List (Token α)) :
    parentheses (.opening :: ts) = parentheses ts + 1 :=
  List.countP_cons_of_pos rfl

@[simp]
theorem parentheses_closing (ts : List (Token α)) :
    parentheses (.closing :: ts) = parentheses ts + 1 :=
  List.countP_cons_of_pos rfl

@[simp]
theorem parentheses_sign (c : Connective) (ts : List (Token α)) :
    parentheses (.sign c :: ts) = parentheses ts :=
  List.countP_cons_of_neg Bool.false_ne_true

@[simp]
theorem parentheses_nil : parentheses ([] : List (Token α)) = 0 := rfl

/-- A text is as much longer than the one without parentheses as there are parentheses. -/
theorem length_texts (labelText : α → String) (ts : List (Token α)) :
    (texts labelText ts).length = (texts labelText (bare ts)).length + parentheses ts := by
  induction ts with
  | nil => rfl
  | cons t ts ih =>
    have hcons : bare (t :: ts) = bare [t] ++ bare ts := bare_append [t] ts
    have hcount : parentheses (t :: ts) = parentheses [t] + parentheses ts :=
      parentheses_append [t] ts
    have htoken : (t.text labelText).length =
        (texts labelText (bare [t])).length + parentheses [t] := by
      cases t <;> simp [bare, isParenthesis, parentheses, text] <;> decide
    rw [hcons, hcount, texts_cons, texts_append, String.length_append, String.length_append, ih,
      htoken]
    omega

/-- Of tokens that differ in nothing but parentheses the text tells how many there are. -/
theorem parentheses_eq_of_texts {labelText : α → String} {ts us : List (Token α)}
    (hbare : bare ts = bare us) (h : texts labelText ts = texts labelText us) :
    parentheses ts = parentheses us := by
  have hlength := congrArg String.length h
  rw [length_texts labelText ts, length_texts labelText us, hbare] at hlength
  omega

end Token

namespace Tree

variable (label : String → Comparison → Literal → α)

/-! ### What a raised flag adds -/

/-- Only a disjunction sees the flag. -/
theorem tokens_of_not_disjunction {t : Tree} (h : t.isDisjunction = false) (guarded guarded' : Bool) :
    t.tokens label guarded = t.tokens label guarded' := by
  cases t with
  | and l r => rfl
  | or l r => cases h
  | constraint s c a => rfl

/-- A raised flag takes no parentheses away. -/
theorem parentheses_tokens_le (t : Tree) (guarded : Bool) :
    Token.parentheses (t.tokens label false) ≤ Token.parentheses (t.tokens label guarded) := by
  induction t generalizing guarded with
  | and l r => exact Nat.le_refl _
  | or l r ihl ihr =>
    cases guarded with
    | false => exact Nat.le_refl _
    | true =>
      have hl := ihl true
      have hr := ihr (!l.hasConjunction)
      simp only [tokens_or, ↓reduceIte, Bool.false_eq_true, Token.parentheses_append,
        Token.parentheses_opening, Token.parentheses_closing, Token.parentheses_sign,
        Token.parentheses_nil]
      omega
  | constraint s c a => exact Nat.le_refl _

/-- It puts parentheses around a disjunction. -/
theorem parentheses_tokens_lt {t : Tree} (h : t.isDisjunction = true) :
    Token.parentheses (t.tokens label false) < Token.parentheses (t.tokens label true) := by
  cases t with
  | and l r => cases h
  | or l r =>
    have hl := parentheses_tokens_le label l true
    have hr := parentheses_tokens_le label r (!l.hasConjunction)
    simp only [tokens_or, ↓reduceIte, Bool.false_eq_true, Token.parentheses_append,
      Token.parentheses_opening, Token.parentheses_closing, Token.parentheses_sign,
      Token.parentheses_nil]
    omega
  | constraint s c a => cases h

theorem parentheses_tokens_le_true (t : Tree) (guarded : Bool) :
    Token.parentheses (t.tokens label guarded) ≤ Token.parentheses (t.tokens label true) := by
  cases guarded with
  | false => exact parentheses_tokens_le label t true
  | true => exact Nat.le_refl _

/-- At a disjunction the number of parentheses tells the flag. -/
theorem flag_of_parentheses_eq {t : Tree} {guarded guarded' : Bool}
    (h : Token.parentheses (t.tokens label guarded) =
      Token.parentheses (t.tokens label guarded')) :
    guarded = guarded' ∨ t.isDisjunction = false := by
  cases hdisjunction : t.isDisjunction with
  | false => exact Or.inr rfl
  | true =>
    have hlt := parentheses_tokens_lt label hdisjunction
    left
    cases guarded <;> cases guarded' <;> first | rfl | omega

/-! ### Conjunctions of three trees -/

/-- Nesting in another way changes nothing but parentheses. -/
theorem bare_tokens_and_assoc (a b c : Tree) :
    Token.bare (((a.and b).and c).tokens label false) =
      Token.bare ((a.and (b.and c)).tokens label false) := by
  rw [tokens_eq_layout, tokens_eq_layout, bare_layout, bare_layout]
  simp [infixTokens]

theorem tokens_and_left (a b c : Tree) :
    ((a.and b).and c).tokens label false =
      a.tokens label true ++ .sign .and :: (b.tokens label (!a.hasConjunction) ++
        .sign .and :: c.tokens label false) := by
  simp [hasConjunction]

theorem tokens_and_right (a b c : Tree) :
    (a.and (b.and c)).tokens label false =
      a.tokens label true ++ .sign .and :: (b.tokens label true ++
        .sign .and :: c.tokens label (!b.hasConjunction)) := by
  simp

/-- When the nesting is not seen: the flag is the same for the second tree or that is no
disjunction, and so for the third. -/
def NestsUnseen (a b c : Tree) : Prop :=
  (a.hasConjunction = false ∨ b.isDisjunction = false) ∧
    (b.hasConjunction = true ∨ c.isDisjunction = false)

theorem NestsUnseen.tokens_eq {a b c : Tree} (h : NestsUnseen a b c) :
    ((a.and b).and c).tokens label false = (a.and (b.and c)).tokens label false := by
  have hb : b.tokens label (!a.hasConjunction) = b.tokens label true := by
    rcases h.1 with ha | hb
    · rw [ha]
      rfl
    · exact tokens_of_not_disjunction label hb _ _
  have hc : c.tokens label (!b.hasConjunction) = c.tokens label false := by
    rcases h.2 with hb | hc
    · rw [hb]
      rfl
    · exact tokens_of_not_disjunction label hc _ _
  rw [tokens_and_left, tokens_and_right, hb, hc]

/-- The nesting to the right has no fewer parentheses, and as many only if the nesting is not seen.
-/
theorem parentheses_and_assoc (a b c : Tree) :
    Token.parentheses (((a.and b).and c).tokens label false) ≤
        Token.parentheses ((a.and (b.and c)).tokens label false) ∧
      (Token.parentheses (((a.and b).and c).tokens label false) =
          Token.parentheses ((a.and (b.and c)).tokens label false) → NestsUnseen a b c) := by
  have hb := parentheses_tokens_le_true label b (!a.hasConjunction)
  have hc := parentheses_tokens_le label c (!b.hasConjunction)
  simp only [tokens_and_left, tokens_and_right, Token.parentheses_append, Token.parentheses_sign]
  refine ⟨by omega, fun h => ?_⟩
  have hbeq : Token.parentheses (b.tokens label (!a.hasConjunction)) =
      Token.parentheses (b.tokens label true) := by omega
  have hceq : Token.parentheses (c.tokens label false) =
      Token.parentheses (c.tokens label (!b.hasConjunction)) := by omega
  exact ⟨by simpa using flag_of_parentheses_eq label hbeq,
    by simpa using flag_of_parentheses_eq label hceq⟩

/-! ### Disjunctions with no conjunction above them -/

/-- Trees that differ in how disjunctions are nested in disjunctions, but not below a conjunction. -/
inductive Regrouped : Tree → Tree → Prop where
  | refl (t : Tree) : Regrouped t t
  | symm {t u : Tree} : Regrouped t u → Regrouped u t
  | trans {t u v : Tree} : Regrouped t u → Regrouped u v → Regrouped t v
  /-- There is no such rule for conjunctions. -/
  | within {l l' r r' : Tree} : Regrouped l l' → Regrouped r r' → Regrouped (or l r) (or l' r')
  | assoc (a b c : Tree) : Regrouped (or (or a b) c) (or a (or b c))

/-- With the flag lowered a disjunction stands bare. -/
theorem render_or (a b : Tree) : (or a b).render = a.render ++ ";" ++ b.render := by
  simp [render_eq_texts_tokens, tokens_or, Token.text, Connective.sign, String.append_assoc]

theorem Regrouped.render_eq {t u : Tree} (h : t.Regrouped u) : t.render = u.render := by
  induction h with
  | refl t => rfl
  | symm _ ih => exact ih.symm
  | trans _ _ ih ih' => exact ih.trans ih'
  | within _ _ ih ih' => rw [render_or, render_or, ih, ih']
  | assoc a b c => simp only [render_or, String.append_assoc]

/-! ### The main result -/

/-- **What is seen of nesting**: disjunctions that have no conjunction above them are written side
by side, so their nesting is not seen. Conjunctions nested to the left and to the right have the
same text exactly if the first tree contains no conjunction or the second is no disjunction, and the
second contains a conjunction or the third is no disjunction; otherwise the nesting to the right has
more parentheses. Apart from the parentheses the tokens of both are the same. -/
theorem render_reassociated :
    (∀ a b : Tree, (or a b).render = a.render ++ ";" ++ b.render) ∧
      (∀ t u : Tree, t.Regrouped u → t.render = u.render) ∧
      (∀ t : Tree, t.render = Token.texts id (t.tokens constraintText false)) ∧
      ∀ a b c : Tree,
        (((a.and b).and c).render = (a.and (b.and c)).render ↔
          (a.hasConjunction = false ∨ b.isDisjunction = false) ∧
            (b.hasConjunction = true ∨ c.isDisjunction = false)) ∧
        (((a.and b).and c).render ≠ (a.and (b.and c)).render ↔
          Token.parentheses (((a.and b).and c).tokens constraintText false) <
            Token.parentheses ((a.and (b.and c)).tokens constraintText false)) ∧
        Token.bare (((a.and b).and c).tokens constraintText false) =
          Token.bare ((a.and (b.and c)).tokens constraintText false) := by
  refine ⟨render_or, fun _ _ => Regrouped.render_eq, render_eq_texts_tokens, fun a b c => ?_⟩
  have hbare := bare_tokens_and_assoc constraintText a b c
  obtain ⟨hle, hunseen⟩ := parentheses_and_assoc constraintText a b c
  have hcount : ((a.and b).and c).render = (a.and (b.and c)).render →
      Token.parentheses (((a.and b).and c).tokens constraintText false) =
        Token.parentheses ((a.and (b.and c)).tokens constraintText false) := by
    intro h
    rw [render_eq_texts_tokens, render_eq_texts_tokens] at h
    exact Token.parentheses_eq_of_texts hbare h
  have hrender : NestsUnseen a b c → ((a.and b).and c).render = (a.and (b.and c)).render := by
    intro h
    rw [render_eq_texts_tokens, render_eq_texts_tokens, h.tokens_eq]
  refine ⟨⟨fun h => hunseen (hcount h), hrender⟩, ⟨fun h => ?_, fun h heq => ?_⟩, hbare⟩
  · exact Nat.lt_of_le_of_ne hle fun heq => h (hrender (hunseen heq))
  · exact Nat.ne_of_lt h (hcount heq)

/-- Two disjunctions in one of which the nesting is not seen, although a conjunction hangs below it,
and one that is joined after a conjunction. -/
theorem render_reassociated_of_three :
    let x := constraint "a" .equals (.bool true)
    let y := constraint "b" .notEquals (.text "(")
    ((x.or y).or (x.and y)).Regrouped (x.or (y.or (x.and y))) ∧
      ((x.or y).or (x.and y)).render = (x.or (y.or (x.and y))).render ∧
      (((x.and y).and (y.or x)).and x).render ≠ ((x.and y).and ((y.or x).and x)).render := by
  intro x y
  have hregrouped : ((x.or y).or (x.and y)).Regrouped (x.or (y.or (x.and y))) := .assoc x y _
  refine ⟨hregrouped, render_reassociated.2.1 _ _ hregrouped, fun h => ?_⟩
  have hunseen := (render_reassociated.2.2.2 (x.and y) (y.or x) x).1.mp h
  revert hunseen
  decide

end Tree

end QueryTree
