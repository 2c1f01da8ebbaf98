import QueryTree.Proofs.Query.Token
import QueryTree.Tree.Fault

/-!
# Positions in trees

Where the flag of `Tree.write` is raised, said twice: by following the walk (`Tree.arrival`), and by
the place alone (`Tree.Protected`). A disjunction is protected if there is a conjunction above it
and, below the nearest one, nothing that hangs to the left of the way down contains a conjunction.
`arrival_false_iff` says that the two agree when the walk begins with the flag lowered.
-/

namespace QueryTree

/-- The way from the root of a tree to one of its subtrees. -/
abbrev Position := List Side

namespace Tree

/-- One of the two joined trees. -/
def child? : Tree → Side → Option Tree
  | and left _, .left => some left
  | and _ right, .right => some right
  | or left _, .left => some left
  | or _ right, .right => some right
  | constraint _ _ _, _ => none

/-- The subtree at a position. -/
def at? : Tree → Position → Option Tree
  | t, [] => some t
  | t, s :: p => (t.child? s).bind fun c => c.at? p

@[simp]
theorem at?_nil (t : Tree) : t.at? [] = some t := rfl

theorem at?_cons {t c : Tree} {s : Side} (h : t.child? s = some c) (p : Position) :
    t.at? (s :: p) = c.at? p := by
  simp [at?, h]

@[simp]
theorem at?_constraint_cons (s : String) (c : Comparison) (a : Literal) (side : Side)
    (p : Position) : (constraint s c a).at? (side :: p) = none := rfl

/-- There is a conjunction at a position. -/
def ConjunctionAt (t : Tree) (p : Position) : Prop := ∃ l r, t.at? p = some (and l r)

theorem conjunctionAt_cons {t c : Tree} {s : Side} (h : t.child? s = some c) (p : Position) :
    t.ConjunctionAt (s :: p) ↔ c.ConjunctionAt p := by
  simp [ConjunctionAt, at?_cons h]

/-! ### The place of a protected disjunction -/

/-- No conjunction stands at the positions above `p`. -/
def Unbroken (t : Tree) (p : Position) : Prop :=
  ∀ q rest, p = q ++ rest → rest ≠ [] → ¬ t.ConjunctionAt q

/-- No subtree that hangs to the left of the way `p` contains a conjunction. -/
def ClearLeft (t : Tree) (p : Position) : Prop :=
  ∀ q rest u, p = q ++ .right :: rest → t.at? (q ++ [.left]) = some u → u.hasConjunction = false

/-- The position is below a conjunction; between the nearest one and the position there is no other,
and nothing to the left of the way down contains one. -/
def Protected (t : Tree) (p : Position) : Prop :=
  ∃ q l r s way, p = q ++ s :: way ∧ t.at? q = some (and l r) ∧
    (∀ m rest, way = m ++ rest → rest ≠ [] → ¬ (and l r).ConjunctionAt (s :: m)) ∧
    (and l r).ClearLeft (s :: way)

theorem unbroken_nil (t : Tree) : t.Unbroken [] := by
  intro q rest h hne
  exact absurd (List.append_eq_nil_iff.mp h.symm).2 hne

/-- No conjunction between the root and a position below one of its trees. -/
theorem unbroken_iff_child {t c : Tree} {s : Side} (h : t.child? s = some c) (way : Position) :
    c.Unbroken way ↔
      ∀ m rest, way = m ++ rest → rest ≠ [] → ¬ t.ConjunctionAt (s :: m) := by
  simp only [Unbroken, conjunctionAt_cons h]

theorem unbroken_cons {t c : Tree} {s : Side} (h : t.child? s = some c) (p : Position) :
    t.Unbroken (s :: p) ↔ ¬ t.ConjunctionAt [] ∧ c.Unbroken p := by
  constructor
  · intro hp
    refine ⟨hp [] (s :: p) rfl (by simp), fun q rest hq hne => ?_⟩
    rw [← conjunctionAt_cons h]
    exact hp (s :: q) rest (by rw [hq]; rfl) hne
  · rintro ⟨h₀, hp⟩ q rest hq hne
    cases q with
    | nil => exact h₀
    | cons s' q =>
      simp only [List.cons_append, List.cons.injEq] at hq
      obtain ⟨rfl, hq⟩ := hq
      rw [conjunctionAt_cons h]
      exact hp q rest hq hne

theorem clearLeft_nil (t : Tree) : t.ClearLeft [] := by
  intro q rest u h
  simp at h

/-- Going left passes nothing by. -/
theorem clearLeft_left {t l : Tree} (h : t.child? .left = some l) (p : Position) :
    t.ClearLeft (.left :: p) ↔ l.ClearLeft p := by
  constructor
  · intro hp q rest u hq hu
    refine hp (.left :: q) rest u (by rw [hq]; rfl) ?_
    rw [List.cons_append, at?_cons h, hu]
  · intro hp q rest u hq hu
    cases q with
    | nil => simp at hq
    | cons s q =>
      simp only [List.cons_append, List.cons.injEq] at hq
      obtain ⟨rfl, hq⟩ := hq
      rw [List.cons_append, at?_cons h] at hu
      exact hp q rest u hq hu

/-- Going right passes the left tree by. -/
theorem clearLeft_right {t l r : Tree} (hl : t.child? .left = some l)
    (hr : t.child? .right = some r) (p : Position) :
    t.ClearLeft (.right :: p) ↔ l.hasConjunction = false ∧ r.ClearLeft p := by
  constructor
  · intro hp
    refine ⟨hp [] p l rfl (by rw [List.nil_append, at?_cons hl, at?_nil]), ?_⟩
    intro q rest u hq hu
    refine hp (.right :: q) rest u (by rw [hq]; rfl) ?_
    rw [List.cons_append, at?_cons hr, hu]
  · rintro ⟨h₀, hp⟩ q rest u hq hu
    cases q with
    | nil =>
      rw [List.nil_append, at?_cons hl, at?_nil, Option.some.injEq] at hu
      rwa [← hu]
    | cons s q =>
      simp only [List.cons_append, List.cons.injEq] at hq
      obtain ⟨rfl, hq⟩ := hq
      rw [List.cons_append, at?_cons hr] at hu
      exact hp q rest u hq hu

theorem not_protected_nil (t : Tree) : ¬ t.Protected [] := by
  rintro ⟨q, l, r, s, way, h, -⟩
  simp at h

/-- The nearest conjunction is the root, or it is in the tree that the way goes to. -/
theorem protected_cons {t c : Tree} {s : Side} (h : t.child? s = some c) (p : Position) :
    t.Protected (s :: p) ↔
      c.Protected p ∨ (t.ConjunctionAt [] ∧ c.Unbroken p ∧ t.ClearLeft (s :: p)) := by
  constructor
  · rintro ⟨q, l, r, s', way, hq, hat, hun, hcl⟩
    cases q with
    | nil =>
      simp only [List.nil_append, List.cons.injEq] at hq
      obtain ⟨rfl, rfl⟩ := hq
      rw [at?_nil, Option.some.injEq] at hat
      subst hat
      exact Or.inr ⟨⟨l, r, rfl⟩, (unbroken_iff_child h p).mpr hun, hcl⟩
    | cons s₀ q =>
      simp only [List.cons_append, List.cons.injEq] at hq
      obtain ⟨rfl, hq⟩ := hq
      rw [at?_cons h] at hat
      exact Or.inl ⟨q, l, r, s', way, hq, hat, hun, hcl⟩
  · rintro (⟨q, l, r, s', way, hq, hat, hun, hcl⟩ | ⟨⟨l, r, hlr⟩, hun, hcl⟩)
    · refine ⟨s :: q, l, r, s', way, by rw [hq]; rfl, ?_, hun, hcl⟩
      rw [at?_cons h, hat]
    · rw [at?_nil, Option.some.injEq] at hlr
      subst hlr
      exact ⟨[], l, r, s, p, rfl, at?_nil _, (unbroken_iff_child h p).mp hun, hcl⟩

/-! ### The flag at a position -/

/-- The flag with which the walk arrives at a position if it begins with `guarded`: a conjunction
raises it for its left tree, and a right tree finds what the left one leaves. -/
def arrival : Tree → Bool → Position → Bool
  | _, guarded, [] => guarded
  | and left _, _, .left :: p => left.arrival true p
  | and left right, _, .right :: p => right.arrival (left.write "" true).2 p
  | or left _, guarded, .left :: p => left.arrival guarded p
  | or left right, guarded, .right :: p => right.arrival (left.write "" guarded).2 p
  | constraint _ _ _, guarded, _ :: _ => guarded

@[simp]
theorem arrival_nil (t : Tree) (guarded : Bool) : t.arrival guarded [] = guarded := by
  cases t <;> rfl

/-- **The flag by the place**: it is raised at protected positions and, if the walk begins with it
raised, also where there is neither a conjunction above nor one to the left of the way. -/
theorem arrival_iff (t : Tree) (guarded : Bool) (p : Position) :
    t.arrival guarded p = true ↔
      t.Protected p ∨ (guarded = true ∧ t.Unbroken p ∧ t.ClearLeft p) := by
  induction t generalizing guarded p with
  | and l r ihl ihr =>
    have h₀ : (and l r).ConjunctionAt [] := ⟨l, r, rfl⟩
    cases p with
    | nil => simp [not_protected_nil, unbroken_nil, clearLeft_nil]
    | cons s p =>
      cases s with
      | left =>
        have h : (and l r).child? .left = some l := rfl
        rw [arrival, ihl, protected_cons h, unbroken_cons h, clearLeft_left h]
        simp [h₀]
      | right =>
        have h : (and l r).child? .right = some r := rfl
        rw [arrival, ihr, protected_cons h, unbroken_cons h,
          clearLeft_right (t := and l r) rfl h, write_snd]
        simp only [Bool.true_and, Bool.not_eq_true']
        grind
  | or l r ihl ihr =>
    have h₀ : ¬ (or l r).ConjunctionAt [] := by
      rintro ⟨x, y, h⟩
      simp at h
    cases p with
    | nil => simp [not_protected_nil, unbroken_nil, clearLeft_nil]
    | cons s p =>
      cases s with
      | left =>
        have h : (or l r).child? .left = some l := rfl
        rw [arrival, ihl, protected_cons h, unbroken_cons h, clearLeft_left h]
        simp [h₀]
      | right =>
        have h : (or l r).child? .right = some r := rfl
        rw [arrival, ihr, protected_cons h, unbroken_cons h,
          clearLeft_right (t := or l r) rfl h, write_snd]
        simp only [Bool.and_eq_true, Bool.not_eq_true']
        grind
  | constraint sel c a =>
    cases p with
    | nil => simp [not_protected_nil, unbroken_nil, clearLeft_nil]
    | cons s p =>
      have hp : ¬ (constraint sel c a).Protected (s :: p) := by
        rintro ⟨q, l, r, s', way, -, h, -⟩
        cases q <;> simp at h
      have hu : (constraint sel c a).Unbroken (s :: p) := by
        rintro q rest - - ⟨l, r, h⟩
        cases q <;> simp at h
      have hc : (constraint sel c a).ClearLeft (s :: p) := by
        intro q rest u _ h
        cases q <;> simp at h
      simp [arrival, hp, hu, hc]

/-- Of a walk that begins with the flag lowered, the flag is raised at the protected positions. -/
theorem arrival_false_iff (t : Tree) (p : Position) :
    t.arrival false p = true ↔ t.Protected p := by
  simp [arrival_iff]

end Tree

end QueryTree
