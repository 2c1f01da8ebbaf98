import QueryTree.Proofs.Query.Token

/-!
# The grammar of queries

A query is a disjunction: conjunctions with `;` between them. A conjunction is made of primaries
with `,` between them, and a primary is a constraint, or a disjunction between parentheses. `Phrase`
is the grammar as a type: a phrase is a way to read its tokens. The grammar is unambiguous
(`Phrase.tokens_inj`), so the formula of a phrase is what its tokens say.
-/

namespace QueryTree

variable {α : Type}

/-- Labels joined by connectives. -/
inductive Formula (α : Type) where
  | and (left right : Formula α)
  | or (left right : Formula α)
  | constraint (label : α)
  deriving Repr, DecidableEq

namespace Formula

/-- Two formulas that differ at most in how conjunctions are nested in conjunctions, and
disjunctions in disjunctions. -/
inductive Same : Formula α → Formula α → Prop where
  | refl {f : Formula α} : Same f f
  | symm {f g : Formula α} : Same f g → Same g f
  | trans {f g h : Formula α} : Same f g → Same g h → Same f h
  | and {f f' g g' : Formula α} : Same f f' → Same g g' → Same (f.and g) (f'.and g')
  | or {f f' g g' : Formula α} : Same f f' → Same g g' → Same (f.or g) (f'.or g')
  /-- The order of the labels is kept. -/
  | and_assoc {f g h : Formula α} : Same ((f.and g).and h) (f.and (g.and h))
  | or_assoc {f g h : Formula α} : Same ((f.or g).or h) (f.or (g.or h))

/-- One for a disjunction, zero for anything else. -/
def orRoot : Formula α → Nat
  | or _ _ => 1
  | _ => 0

/-- The number of disjunctions that a conjunction joins. -/
def joinedOrs : Formula α → Nat
  | and f g => f.joinedOrs + g.joinedOrs + f.orRoot + g.orRoot
  | or f g => f.joinedOrs + g.joinedOrs
  | constraint _ => 0

/-- Nesting in another way joins the same disjunctions. -/
theorem Same.counts {f g : Formula α} (h : Same f g) :
    f.orRoot = g.orRoot ∧ f.joinedOrs = g.joinedOrs := by
  induction h with
  | refl => exact ⟨rfl, rfl⟩
  | symm _ ih => exact ⟨ih.1.symm, ih.2.symm⟩
  | trans _ _ ih ih' => exact ⟨ih.1.trans ih'.1, ih.2.trans ih'.2⟩
  | and _ _ ih ih' =>
    refine ⟨rfl, ?_⟩
    simp only [joinedOrs]
    omega
  | or _ _ ih ih' =>
    refine ⟨rfl, ?_⟩
    simp only [joinedOrs]
    omega
  | and_assoc =>
    refine ⟨rfl, ?_⟩
    simp only [joinedOrs, orRoot]
    omega
  | or_assoc =>
    refine ⟨rfl, ?_⟩
    simp only [joinedOrs]
    omega

end Formula

/-- What a phrase may stand for, from the tightest. -/
inductive Level where
  | primary
  | conjunction
  | disjunction
  deriving Repr, DecidableEq

/-- The phrases of the grammar. -/
inductive Phrase (α : Type) : Level → Type where
  | constraint (label : α) : Phrase α .primary
  /-- A disjunction between parentheses. -/
  | group (inner : Phrase α .disjunction) : Phrase α .primary
  /-- The last primary of a conjunction. -/
  | primary (p : Phrase α .primary) : Phrase α .conjunction
  /-- A primary, a comma and the rest of a conjunction. -/
  | and (p : Phrase α .primary) (rest : Phrase α .conjunction) : Phrase α .conjunction
  /-- The last conjunction of a disjunction. -/
  | conjunction (c : Phrase α .conjunction) : Phrase α .disjunction
  /-- A conjunction, a semicolon and the rest of a disjunction. -/
  | or (c : Phrase α .conjunction) (rest : Phrase α .disjunction) : Phrase α .disjunction

namespace Phrase

/-- The tokens of a phrase. -/
def tokens : {level : Level} → Phrase α level → List (Token α)
  | _, constraint a => [.constraint a]
  | _, group d => .opening :: (d.tokens ++ [.closing])
  | _, primary p => p.tokens
  | _, and p c => p.tokens ++ .sign .and :: c.tokens
  | _, conjunction c => c.tokens
  | _, or c d => c.tokens ++ .sign .or :: d.tokens

/-- The formula of a phrase. -/
def formula : {level : Level} → Phrase α level → Formula α
  | _, constraint a => .constraint a
  | _, group d => d.formula
  | _, primary p => p.formula
  | _, and p c => .and p.formula c.formula
  | _, conjunction c => c.formula
  | _, or c d => .or c.formula d.formula

/-! ### A list of tokens has one reading at most -/

/-- What may follow a phrase without going on with it. -/
def Ends : Level → List (Token α) → Prop
  | .primary, _ => True
  | .conjunction, rest => rest.head? ≠ some (.sign .and)
  | .disjunction, rest => rest.head? ≠ some (.sign .and) ∧ rest.head? ≠ some (.sign .or)

/-- The beginning of a list of tokens is one phrase of a level at most. -/
theorem eq_of_tokens_append {level : Level} (p q : Phrase α level) {x y : List (Token α)}
    (hx : Ends level x) (hy : Ends level y) (h : p.tokens ++ x = q.tokens ++ y) :
    p = q ∧ x = y := by
  induction p generalizing x y with
  | constraint a =>
    cases q with
    | constraint b =>
      simp only [tokens, List.singleton_append, List.cons.injEq, Token.constraint.injEq] at h
      exact ⟨by rw [h.1], h.2⟩
    | group e => simp [tokens] at h
  | group d ih =>
    cases q with
    | constraint b => simp [tokens] at h
    | group e =>
      simp only [tokens, List.cons_append, List.append_assoc, List.nil_append, List.cons.injEq,
        true_and] at h
      have hends : ∀ z : List (Token α), Ends .disjunction (.closing :: z) := by simp [Ends]
      obtain ⟨rfl, hxy⟩ := ih e (hends x) (hends y) h
      exact ⟨rfl, (List.cons.inj hxy).2⟩
  | primary p ih =>
    cases q with
    | primary q =>
      obtain ⟨rfl, hxy⟩ := ih q trivial trivial h
      exact ⟨rfl, hxy⟩
    | and q d =>
      simp only [tokens, List.append_assoc, List.cons_append] at h
      obtain ⟨-, rfl⟩ := ih q trivial trivial h
      simp [Ends] at hx
  | and p c ihp ihc =>
    cases q with
    | primary q =>
      simp only [tokens, List.append_assoc, List.cons_append] at h
      obtain ⟨-, rfl⟩ := ihp q trivial trivial h
      simp [Ends] at hy
    | and q d =>
      simp only [tokens, List.append_assoc, List.cons_append] at h
      obtain ⟨rfl, hrest⟩ := ihp q trivial trivial h
      obtain ⟨rfl, hxy⟩ := ihc d hx hy (List.cons.inj hrest).2
      exact ⟨rfl, hxy⟩
  | conjunction c ih =>
    cases q with
    | conjunction d =>
      obtain ⟨rfl, hxy⟩ := ih d hx.1 hy.1 h
      exact ⟨rfl, hxy⟩
    | or d e =>
      simp only [tokens, List.append_assoc, List.cons_append] at h
      obtain ⟨-, rfl⟩ := ih d hx.1 (by simp [Ends]) h
      simp [Ends] at hx
  | or c d ihc ihd =>
    cases q with
    | conjunction e =>
      simp only [tokens, List.append_assoc, List.cons_append] at h
      obtain ⟨-, rfl⟩ := ihc e (by simp [Ends]) hy.1 h
      simp [Ends] at hy
    | or e f =>
      simp only [tokens, List.append_assoc, List.cons_append] at h
      obtain ⟨rfl, hrest⟩ := ihc e (by simp [Ends]) (by simp [Ends]) h
      obtain ⟨rfl, hxy⟩ := ihd f hx hy (List.cons.inj hrest).2
      exact ⟨rfl, hxy⟩

/-- **The grammar is unambiguous.** -/
theorem tokens_inj {p q : Phrase α .disjunction} (h : p.tokens = q.tokens) : p = q :=
  (eq_of_tokens_append p q (x := []) (y := []) (by simp [Ends]) (by simp [Ends]) (by simp [h])).1

/-! ### Joining readings

Tokens that are read as two disjunctions can be joined by a sign. With a semicolon the disjunctions
follow one another. With a comma the last conjunction of the one and the first of the other become
one conjunction, whatever they were meant to belong to.
-/

/-- The reading of a disjunction between parentheses. -/
def parenthesized (d : Phrase α .disjunction) : Phrase α .disjunction :=
  conjunction (primary (group d))

/-- A semicolon between two disjunctions. -/
def semicolon : Phrase α .disjunction → Phrase α .disjunction → Phrase α .disjunction
  | conjunction c, e => or c e
  | or c d, e => or c (semicolon d e)

/-- A primary and a comma before a disjunction. -/
def prepend (p : Phrase α .primary) : Phrase α .disjunction → Phrase α .disjunction
  | conjunction c => conjunction (and p c)
  | or c d => or (and p c) d

/-- A comma between a conjunction and a disjunction. -/
def commaAfter : Phrase α .conjunction → Phrase α .disjunction → Phrase α .disjunction
  | primary p, e => prepend p e
  | and p c, e => prepend p (commaAfter c e)

/-- A comma between two disjunctions. -/
def comma : Phrase α .disjunction → Phrase α .disjunction → Phrase α .disjunction
  | conjunction c, e => commaAfter c e
  | or c d, e => or c (comma d e)

@[simp]
theorem tokens_parenthesized (d : Phrase α .disjunction) :
    d.parenthesized.tokens = .opening :: (d.tokens ++ [.closing]) := rfl

@[simp]
theorem formula_parenthesized (d : Phrase α .disjunction) : d.parenthesized.formula = d.formula :=
  rfl

@[simp]
theorem tokens_semicolon (d e : Phrase α .disjunction) :
    (semicolon d e).tokens = d.tokens ++ .sign .or :: e.tokens := by
  fun_induction semicolon d e with
  | case1 c e => rfl
  | case2 c d e ih => simp [tokens, ih]

theorem tokens_prepend (p : Phrase α .primary) (e : Phrase α .disjunction) :
    (prepend p e).tokens = p.tokens ++ .sign .and :: e.tokens := by
  cases e <;> simp [prepend, tokens]

theorem tokens_commaAfter (c : Phrase α .conjunction) (e : Phrase α .disjunction) :
    (commaAfter c e).tokens = c.tokens ++ .sign .and :: e.tokens := by
  fun_induction commaAfter c e with
  | case1 p e => exact tokens_prepend p e
  | case2 p c e ih => simp [tokens_prepend, tokens, ih]

@[simp]
theorem tokens_comma (d e : Phrase α .disjunction) :
    (comma d e).tokens = d.tokens ++ .sign .and :: e.tokens := by
  fun_induction comma d e with
  | case1 c e => exact tokens_commaAfter c e
  | case2 c d e ih => simp [tokens, ih]

/-- A semicolon joins what it stands between. -/
theorem same_semicolon (d e : Phrase α .disjunction) :
    (semicolon d e).formula.Same (.or d.formula e.formula) := by
  fun_induction semicolon d e with
  | case1 c e => exact .refl
  | case2 c d e ih => exact .trans (.or .refl ih) (.symm .or_assoc)

theorem same_commaAfter : ∀ c d : Phrase α .conjunction,
    ∃ e : Phrase α .conjunction, commaAfter c (conjunction d) = conjunction e ∧
      e.formula.Same (.and c.formula d.formula)
  | primary p, d => ⟨and p d, by rw [commaAfter, prepend], .refl⟩
  | and p c, d => by
    obtain ⟨e, he, hsame⟩ := same_commaAfter c d
    exact ⟨and p e, by rw [commaAfter, he, prepend], .trans (.and .refl hsame) (.symm .and_assoc)⟩

/-- A comma joins what it stands between, if that is no more than two conjunctions. -/
theorem same_comma (c d : Phrase α .conjunction) :
    ∃ e : Phrase α .conjunction, comma (conjunction c) (conjunction d) = conjunction e ∧
      e.formula.Same (.and c.formula d.formula) := by
  rw [comma]
  exact same_commaAfter c d

/-! ### The disjunctions that a comma joins -/

/-- The first conjunction of a disjunction. -/
def first : Phrase α .disjunction → Phrase α .conjunction
  | conjunction c => c
  | or c _ => c

/-- The last conjunction of a disjunction. -/
def last : Phrase α .disjunction → Phrase α .conjunction
  | conjunction c => c
  | or _ d => last d

/-- A conjunction with a comma in it is no disjunction. -/
theorem orRoot_first_prepend (p : Phrase α .primary) (e : Phrase α .disjunction) :
    (prepend p e).first.formula.orRoot = 0 := by
  cases e <;> rfl

theorem orRoot_first_commaAfter (c : Phrase α .conjunction) (e : Phrase α .disjunction) :
    (commaAfter c e).first.formula.orRoot = 0 := by
  cases c <;> rw [commaAfter] <;> exact orRoot_first_prepend _ _

/-- A comma leaves the first conjunction alone or makes it longer. -/
theorem orRoot_first_comma {d : Phrase α .disjunction} (e : Phrase α .disjunction)
    (h : (∃ c, d = conjunction c) ∨ d.first.formula.orRoot = 0) :
    (comma d e).first.formula.orRoot = 0 := by
  cases d with
  | conjunction c =>
    rw [comma]
    exact orRoot_first_commaAfter c e
  | or c d =>
    rw [comma]
    rcases h with ⟨c', h⟩ | h
    · cases h
    · exact h

theorem orRoot_last_prepend (p : Phrase α .primary) {e : Phrase α .disjunction}
    (h : (∃ c, e = conjunction c) ∨ e.last.formula.orRoot = 0) :
    (prepend p e).last.formula.orRoot = 0 := by
  cases e with
  | conjunction c =>
    rw [prepend, last]
    rfl
  | or c e =>
    rw [prepend, last]
    rcases h with ⟨c', h⟩ | h
    · cases h
    · rwa [last] at h

theorem orRoot_last_commaAfter (c : Phrase α .conjunction) {e : Phrase α .disjunction}
    (h : (∃ c, e = conjunction c) ∨ e.last.formula.orRoot = 0) :
    (commaAfter c e).last.formula.orRoot = 0 := by
  fun_induction commaAfter c e with
  | case1 p e => exact orRoot_last_prepend p h
  | case2 p c e ih => exact orRoot_last_prepend p (Or.inr (ih h))

/-- A comma leaves the last conjunction alone or makes it longer. -/
theorem orRoot_last_comma (d : Phrase α .disjunction) {e : Phrase α .disjunction}
    (h : (∃ c, e = conjunction c) ∨ e.last.formula.orRoot = 0) :
    (comma d e).last.formula.orRoot = 0 := by
  fun_induction comma d e with
  | case1 c e => exact orRoot_last_commaAfter c h
  | case2 c d e ih =>
    rw [last]
    exact ih h

theorem first_semicolon (d e : Phrase α .disjunction) : (semicolon d e).first = d.first := by
  cases d <;> rw [semicolon] <;> rfl

theorem last_semicolon (d e : Phrase α .disjunction) : (semicolon d e).last = e.last := by
  fun_induction semicolon d e with
  | case1 c e => rw [last]
  | case2 c d e ih => rw [last, ih]

theorem orRoot_semicolon (d e : Phrase α .disjunction) :
    (semicolon d e).formula.orRoot = 1 := by
  cases d <;> rw [semicolon] <;> rfl

theorem joinedOrs_semicolon (d e : Phrase α .disjunction) :
    (semicolon d e).formula.joinedOrs = d.formula.joinedOrs + e.formula.joinedOrs := by
  fun_induction semicolon d e with
  | case1 c e => rfl
  | case2 c d e ih =>
    simp only [formula, Formula.joinedOrs, ih]
    omega

theorem joinedOrs_prepend (p : Phrase α .primary) (e : Phrase α .disjunction) :
    (prepend p e).formula.joinedOrs =
      p.formula.joinedOrs + e.formula.joinedOrs + p.formula.orRoot + e.first.formula.orRoot := by
  cases e with
  | conjunction c => rfl
  | or c d =>
    simp only [prepend, formula, Formula.joinedOrs, first]
    omega

theorem joinedOrs_commaAfter (c : Phrase α .conjunction) (e : Phrase α .disjunction) :
    (commaAfter c e).formula.joinedOrs =
      c.formula.joinedOrs + e.formula.joinedOrs + c.formula.orRoot + e.first.formula.orRoot := by
  fun_induction commaAfter c e with
  | case1 p e => exact joinedOrs_prepend p e
  | case2 p c e ih =>
    rw [joinedOrs_prepend, ih, orRoot_first_commaAfter]
    simp only [formula, Formula.joinedOrs, Formula.orRoot]
    omega

/-- A comma joins the last conjunction before it and the first one after it; where one of these is a
disjunction in parentheses, it becomes joined. -/
theorem joinedOrs_comma (d e : Phrase α .disjunction) :
    (comma d e).formula.joinedOrs = d.formula.joinedOrs + e.formula.joinedOrs +
      d.last.formula.orRoot + e.first.formula.orRoot := by
  fun_induction comma d e with
  | case1 c e =>
    rw [last]
    exact joinedOrs_commaAfter c e
  | case2 c d e ih =>
    simp only [formula, Formula.joinedOrs, last, ih]
    omega

end Phrase

end QueryTree
