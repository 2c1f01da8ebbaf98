import QueryTree.Proofs.Query.Grammar
import QueryTree.Proofs.Query.Position

/-!
# Reading a query back

What a query says by the grammar, compared with the tree it was written from. `Tree.phrase` is the
reading of a tree's tokens, found along the tree. `reads_same_iff` says when it is the tree again,
up to the nesting of conjunctions in conjunctions and of disjunctions in disjunctions: when no
conjunction joins, to its right, a disjunction after a tree with a conjunction in it. Such a
disjunction stands bare, and its first part is read as a part of the conjunction.
-/

namespace QueryTree

namespace Tree

variable {α : Type} (label : String → Comparison → Literal → α)

/-- The formula of a tree. -/
def formula : Tree → Formula α
  | and left right => .and left.formula right.formula
  | or left right => .or left.formula right.formula
  | constraint selector comparison argument => .constraint (label selector comparison argument)

/-- The reading of the tokens of a tree that is written when the flag is `guarded`. -/
def phrase : Tree → Bool → Phrase α .disjunction
  | and left right, _ => .comma (left.phrase true) (right.phrase (!left.hasConjunction))
  | or left right, guarded =>
    let inner := (left.phrase guarded).semicolon (right.phrase (guarded && !left.hasConjunction))
    if guarded then inner.parenthesized else inner
  | constraint selector comparison argument, _ =>
    .conjunction (.primary (.constraint (label selector comparison argument)))

theorem tokens_phrase (t : Tree) (guarded : Bool) :
    (t.phrase label guarded).tokens = t.tokens label guarded := by
  induction t generalizing guarded with
  | and l r ihl ihr => simp [phrase, ihl, ihr]
  | or l r ihl ihr => cases guarded <;> simp [phrase, tokens_or, ihl, ihr]
  | constraint s c a => rfl

/-! ### Disjunctions that slip out of a conjunction -/

/-- The tree is a disjunction. -/
def isDisjunction : Tree → Bool
  | or _ _ => true
  | _ => false

/-- The number of conjunctions that join a disjunction to their right and whose left tree contains a
conjunction. -/
def slips : Tree → Nat
  | and left right =>
    left.slips + right.slips + (left.hasConjunction && right.isDisjunction).toNat
  | or left right => left.slips + right.slips
  | constraint _ _ _ => 0

theorem slips_eq_zero_iff (t : Tree) :
    t.slips = 0 ↔ ∀ p l a b, t.at? p = some (and l (or a b)) → l.hasConjunction = false := by
  induction t with
  | and l r ihl ihr =>
    have here : (l.hasConjunction && r.isDisjunction).toNat = 0 ↔
        ∀ a b, r = or a b → l.hasConjunction = false := by
      cases r <;> cases l.hasConjunction <;> simp [isDisjunction]
    simp only [slips, Nat.add_eq_zero_iff, ihl, ihr, here]
    constructor
    · rintro ⟨⟨hl, hr⟩, h⟩ p l' a b hp
      cases p with
      | nil =>
        simp only [at?_nil, Option.some.injEq, and.injEq] at hp
        obtain ⟨rfl, hp⟩ := hp
        exact h a b hp
      | cons s p =>
        cases s with
        | left => exact hl p l' a b hp
        | right => exact hr p l' a b hp
    · intro h
      refine ⟨⟨fun p => h (.left :: p), fun p => h (.right :: p)⟩, ?_⟩
      rintro a b rfl
      exact h [] l a b rfl
  | or l r ihl ihr =>
    simp only [slips, Nat.add_eq_zero_iff, ihl, ihr]
    constructor
    · rintro ⟨hl, hr⟩ p l' a b hp
      cases p with
      | nil => simp at hp
      | cons s p =>
        cases s with
        | left => exact hl p l' a b hp
        | right => exact hr p l' a b hp
    · intro h
      exact ⟨fun p => h (.left :: p), fun p => h (.right :: p)⟩
  | constraint s c a =>
    refine ⟨fun _ p l x y hp => ?_, fun _ => rfl⟩
    cases p <;> simp at hp

/-- If nothing slips out at a conjunction, the flag is raised for its right tree or that is no
disjunction. -/
theorem raised_or_of_slips {l r : Tree} (h : (l.hasConjunction && r.isDisjunction).toNat = 0) :
    (!l.hasConjunction) = true ∨ r.isDisjunction = false := by
  cases hl : l.hasConjunction with
  | true =>
    rw [hl] at h
    exact Or.inr (by simpa using h)
  | false => exact Or.inl rfl

/-- A tree of which nothing slips out is read as one conjunction, unless it is a bare disjunction.
-/
theorem phrase_eq_conjunction {t : Tree} (h : t.slips = 0) (guarded : Bool)
    (hg : guarded = true ∨ t.isDisjunction = false) :
    ∃ c, t.phrase label guarded = .conjunction c := by
  induction t generalizing guarded with
  | and l r ihl ihr =>
    simp only [slips, Nat.add_eq_zero_iff] at h
    obtain ⟨⟨hl, hr⟩, hlr⟩ := h
    obtain ⟨c, hc⟩ := ihl hl true (Or.inl rfl)
    obtain ⟨d, hd⟩ := ihr hr (!l.hasConjunction) (raised_or_of_slips hlr)
    obtain ⟨e, he, -⟩ := Phrase.same_comma c d
    exact ⟨e, by rw [phrase, hc, hd, he]⟩
  | or l r _ _ =>
    obtain rfl : guarded = true := by simpa [isDisjunction] using hg
    exact ⟨_, rfl⟩
  | constraint s c a => exact ⟨_, rfl⟩

/-- A tree of which nothing slips out is read as itself. -/
theorem same_phrase {t : Tree} (h : t.slips = 0) (guarded : Bool) :
    (t.phrase label guarded).formula.Same (t.formula label) := by
  induction t generalizing guarded with
  | and l r ihl ihr =>
    simp only [slips, Nat.add_eq_zero_iff] at h
    obtain ⟨⟨hl, hr⟩, hlr⟩ := h
    obtain ⟨c, hc⟩ := phrase_eq_conjunction label hl true (Or.inl rfl)
    obtain ⟨d, hd⟩ := phrase_eq_conjunction label hr (!l.hasConjunction) (raised_or_of_slips hlr)
    obtain ⟨e, he, hsame⟩ := Phrase.same_comma c d
    have hl' := ihl hl true
    have hr' := ihr hr (!l.hasConjunction)
    rw [hc] at hl'
    rw [hd] at hr'
    rw [phrase, hc, hd, he]
    exact .trans hsame (.and hl' hr')
  | or l r ihl ihr =>
    simp only [slips, Nat.add_eq_zero_iff] at h
    have inner := Formula.Same.trans
      (Phrase.same_semicolon (l.phrase label guarded)
        (r.phrase label (guarded && !l.hasConjunction)))
      (.or (ihl h.1 guarded) (ihr h.2 (guarded && !l.hasConjunction)))
    rw [phrase]
    split
    · exact inner
    · exact inner
  | constraint s c a => exact .refl

/-! ### What slips out is counted -/

/-- A tree is read as one conjunction if it is a disjunction that finds the flag raised. -/
theorem phrase_eq_conjunction_or (t : Tree) (guarded : Bool) :
    (∃ c, t.phrase label guarded = .conjunction c) ∨ (guarded && t.isDisjunction) = false := by
  cases t with
  | and l r => exact Or.inr (Bool.and_false _)
  | or l r =>
    cases guarded with
    | true => exact Or.inl ⟨_, rfl⟩
    | false => exact Or.inr rfl
  | constraint s c a => exact Or.inr (Bool.and_false _)

/-- At its ends a reading has a disjunction in parentheses only if it is nothing else. -/
theorem orRoot_phrase (t : Tree) (guarded : Bool) :
    (t.phrase label guarded).first.formula.orRoot = (guarded && t.isDisjunction).toNat ∧
      (t.phrase label guarded).last.formula.orRoot = (guarded && t.isDisjunction).toNat := by
  induction t generalizing guarded with
  | and l r ihl ihr =>
    have hfirst : (∃ c, l.phrase label true = .conjunction c) ∨
        (l.phrase label true).first.formula.orRoot = 0 := by
      refine (phrase_eq_conjunction_or label l true).imp id fun h => ?_
      rw [(ihl true).1, h]
      rfl
    have hlast : (∃ c, r.phrase label (!l.hasConjunction) = .conjunction c) ∨
        (r.phrase label (!l.hasConjunction)).last.formula.orRoot = 0 := by
      refine (phrase_eq_conjunction_or label r (!l.hasConjunction)).imp id fun h => ?_
      rw [(ihr (!l.hasConjunction)).2, h]
      rfl
    rw [phrase, Phrase.orRoot_first_comma _ hfirst, Phrase.orRoot_last_comma _ hlast]
    simp [isDisjunction]
  | or l r ihl ihr =>
    cases guarded with
    | true =>
      simp only [phrase, ↓reduceIte, Phrase.parenthesized, Phrase.first, Phrase.last,
        Phrase.formula, Phrase.orRoot_semicolon]
      exact ⟨rfl, rfl⟩
    | false =>
      simp only [phrase, Bool.false_eq_true, ↓reduceIte, Phrase.first_semicolon,
        Phrase.last_semicolon]
      exact ⟨(ihl false).1, (ihr false).2⟩
  | constraint s c a =>
    simp [phrase, Phrase.first, Phrase.last, Phrase.formula, Formula.orRoot, isDisjunction]

theorem orRoot_formula (t : Tree) : (t.formula label).orRoot = t.isDisjunction.toNat := by
  cases t <;> rfl

/-- Each disjunction that slips out of a conjunction is one that the reading does not join. -/
theorem joinedOrs_phrase (t : Tree) (guarded : Bool) :
    (t.phrase label guarded).formula.joinedOrs + t.slips = (t.formula label).joinedOrs := by
  induction t generalizing guarded with
  | and l r ihl ihr =>
    have hl := ihl true
    have hr := ihr (!l.hasConjunction)
    have split : (!l.hasConjunction && r.isDisjunction).toNat +
        (l.hasConjunction && r.isDisjunction).toNat = r.isDisjunction.toNat := by
      cases l.hasConjunction <;> simp
    rw [phrase, Phrase.joinedOrs_comma, (orRoot_phrase label l true).2,
      (orRoot_phrase label r (!l.hasConjunction)).1]
    simp only [slips, formula, Formula.joinedOrs, orRoot_formula, Bool.true_and]
    omega
  | or l r ihl ihr =>
    have hl := ihl guarded
    have hr := ihr (guarded && !l.hasConjunction)
    have inner := Phrase.joinedOrs_semicolon (l.phrase label guarded)
      (r.phrase label (guarded && !l.hasConjunction))
    have whole : ((or l r).phrase label guarded).formula =
        ((l.phrase label guarded).semicolon
          (r.phrase label (guarded && !l.hasConjunction))).formula := by
      cases guarded <;> rfl
    rw [whole, inner]
    simp only [slips, formula, Formula.joinedOrs]
    omega
  | constraint s c a => rfl

/-! ### The main result -/

/-- **Reading back**: a query consists of the texts of its tokens. Whatever is kept of the
constraints, the tokens have exactly one reading, and it is the tree, up to nesting in another way,
if and only if no conjunction joins a disjunction to the right of a tree that contains a
conjunction. -/
theorem reads_same_iff (t : Tree) :
    t.render = Token.texts id (t.tokens constraintText false) ∧
      ∀ {α : Type} (label : String → Comparison → Literal → α),
        ∃ p : Phrase α .disjunction,
          (∀ q : Phrase α .disjunction, q.tokens = t.tokens label false ↔ q = p) ∧
          (p.formula.Same (t.formula label) ↔
            ∀ place l a b, t.at? place = some (and l (or a b)) → l.hasConjunction = false) := by
  refine ⟨render_eq_texts constraintText (fun _ _ _ => rfl) t, fun label => ?_⟩
  refine ⟨t.phrase label false, fun q => ?_, ?_⟩
  · rw [← tokens_phrase]
    exact ⟨Phrase.tokens_inj, fun h => by rw [h]⟩
  · rw [← slips_eq_zero_iff]
    refine ⟨fun h => ?_, fun h => same_phrase label h false⟩
    have hsame := h.counts.2
    have hcount := joinedOrs_phrase label t false
    omega

end Tree

end QueryTree
