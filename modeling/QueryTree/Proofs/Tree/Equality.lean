import QueryTree.Proofs.Literal.Equality
import QueryTree.Proofs.Query.Position

/-!
# Equality of trees

`Tree.same` holds of trees of one shape with the same selectors and comparisons, in which literals
at the same place are equal (`Tree.Matched`). What is known of the literals is carried over: equality
of trees is symmetric and transitive, and a tree equals itself unless some literal in it is no number
(`Tree.same_partial_equivalence`).
-/

namespace QueryTree

open QueryTree.Calendar

/-! ### Date-times -/

namespace Literal

/-- Literals that are made of date-times are equal if these are the same instant. -/
structure ComparedAsInstants (make : DateTime → Literal) : Prop where
  instant : ∀ x y, (make x).same (make y) = true ↔ x.instant = y.instant
  /-- The offsets do not matter: there is one date-time at offset zero for all of them. -/
  utc : ∀ x y u, x.toUtc? = some u → ((make x).same (make y) = true ↔ y.toUtc? = some u)
  /-- At one offset nothing else is the same instant. -/
  offset : ∀ x y, x.offset = y.offset → ((make x).same (make y) = true ↔ x = y)
  leap : ∀ x y, 1000000000 ≤ x.time.nano → y.time.nano < 1000000000 →
    (make x).same (make y) = false

theorem comparedAsInstants {make : DateTime → Literal}
    (h : ∀ x y, (make x).same (make y) = true ↔ x.instant = y.instant) :
    ComparedAsInstants make where
  instant := h
  utc x y u hu := by
    obtain ⟨hzero, hinstant⟩ := DateTime.toUtc?_eq_some_iff.mp hu
    rw [h, DateTime.toUtc?_eq_some_iff, hinstant]
    exact ⟨fun heq => ⟨hzero, heq⟩, And.right⟩
  offset x y hoffset := by
    rw [h]
    exact ⟨fun heq => DateTime.eq_of_instant heq hoffset, fun heq => by rw [heq]⟩
  leap x y hx hy := by
    rw [← Bool.not_eq_true, h]
    intro heq
    have := (DateTime.leap_iff_of_instant heq).mp hx
    omega

end Literal

namespace Tree

/-! ### Trees that match -/

variable {R S : Literal → Literal → Prop}

/-- Trees that differ in nothing but their literals, and these are related. -/
inductive Matched (R : Literal → Literal → Prop) : Tree → Tree → Prop where
  | and {l l' r r' : Tree} : Matched R l l' → Matched R r r' → Matched R (and l r) (and l' r')
  | or {l l' r r' : Tree} : Matched R l l' → Matched R r r' → Matched R (or l r) (or l' r')
  | constraint (s : String) (c : Comparison) {a b : Literal} : R a b →
    Matched R (constraint s c a) (constraint s c b)

namespace Matched

theorem refl (hR : ∀ a, R a a) : ∀ t : Tree, Matched R t t
  | .and l r => .and (refl hR l) (refl hR r)
  | .or l r => .or (refl hR l) (refl hR r)
  | .constraint s c a => .constraint s c (hR a)

theorem symm (hR : ∀ {a b}, R a b → R b a) {t u : Tree} (h : Matched R t u) : Matched R u t := by
  induction h with
  | and _ _ ihl ihr => exact .and ihl ihr
  | or _ _ ihl ihr => exact .or ihl ihr
  | constraint s c h => exact .constraint s c (hR h)

theorem trans (hR : ∀ {a b c}, R a b → R b c → R a c) {t u v : Tree} (h : Matched R t u)
    (h' : Matched R u v) : Matched R t v := by
  induction h generalizing v with
  | and _ _ ihl ihr =>
    cases h' with
    | and hl hr => exact .and (ihl hl) (ihr hr)
  | or _ _ ihl ihr =>
    cases h' with
    | or hl hr => exact .or (ihl hl) (ihr hr)
  | constraint s c h =>
    cases h' with
    | constraint _ _ h' => exact .constraint s c (hR h h')

end Matched

/-- Equality of trees is equality of their literals. -/
theorem same_iff_matched {t u : Tree} : t.same u = true ↔ Matched Literal.Equated t u := by
  constructor
  · intro h
    fun_induction same t u with
    | case1 a b c d iha ihb =>
      rw [Bool.and_eq_true] at h
      exact .and (iha h.1) (ihb h.2)
    | case2 a b c d iha ihb =>
      rw [Bool.and_eq_true] at h
      exact .or (iha h.1) (ihb h.2)
    | case3 s c a t d b =>
      simp only [Bool.and_eq_true, beq_iff_eq] at h
      obtain ⟨⟨rfl, rfl⟩, h⟩ := h
      exact .constraint s c (Literal.same_iff_equated.mp h)
    | case4 => cases h
  · intro h
    induction h with
    | and _ _ ihl ihr => rw [same, ihl, ihr, Bool.and_self]
    | or _ _ ihl ihr => rw [same, ihl, ihr, Bool.and_self]
    | constraint s c h => simp [same, Literal.same_iff_equated.mpr h]

theorem same_constraint_iff (s s' : String) (c c' : Comparison) (a b : Literal) :
    (constraint s c a).same (constraint s' c' b) = true ↔
      s = s' ∧ c = c' ∧ a.same b = true := by
  simp [same, and_assoc]

/-! ### Places of literals -/

/-- Literals at the same place of two trees are related. -/
def RelatedAt (R : Literal → Literal → Prop) (t u : Tree) : Prop :=
  ∀ p s c a b, t.at? p = some (constraint s c a) → u.at? p = some (constraint s c b) → R a b

theorem relatedAt_constraint_iff {s : String} {c : Comparison} {a b : Literal} :
    RelatedAt R (constraint s c a) (constraint s c b) ↔ R a b := by
  constructor
  · exact fun h => h [] s c a b rfl rfl
  · intro h p s' c' a' b' ha hb
    cases p with
    | nil =>
      cases ha
      cases hb
      exact h
    | cons side p =>
      rw [at?_constraint_cons] at ha
      cases ha

/-- Below the roots of two joined trees. -/
theorem relatedAt_iff_children {t u l l' r r' : Tree} (hl : t.child? .left = some l)
    (hr : t.child? .right = some r) (hl' : u.child? .left = some l')
    (hr' : u.child? .right = some r') : RelatedAt R t u ↔ RelatedAt R l l' ∧ RelatedAt R r r' := by
  constructor
  · intro h
    refine ⟨fun p s c a b ha hb => h (.left :: p) s c a b ?_ ?_,
      fun p s c a b ha hb => h (.right :: p) s c a b ?_ ?_⟩
    · rwa [at?_cons hl]
    · rwa [at?_cons hl']
    · rwa [at?_cons hr]
    · rwa [at?_cons hr']
  · rintro ⟨h, h'⟩ p s c a b ha hb
    match p with
    | [] =>
      rw [at?_nil, Option.some.injEq] at ha
      rw [ha] at hl
      cases hl
    | .left :: p =>
      rw [at?_cons hl] at ha
      rw [at?_cons hl'] at hb
      exact h p s c a b ha hb
    | .right :: p =>
      rw [at?_cons hr] at ha
      rw [at?_cons hr'] at hb
      exact h' p s c a b ha hb

/-- Of trees that match, the literals at the same places are what is matched. -/
theorem Matched.iff_relatedAt {t u : Tree} (h : Matched R t u) : Matched S t u ↔ RelatedAt S t u := by
  induction h with
  | and _ _ ihl ihr =>
    rw [relatedAt_iff_children rfl rfl rfl rfl, ← ihl, ← ihr]
    exact ⟨fun h => by cases h with | and hl hr => exact ⟨hl, hr⟩, fun h => .and h.1 h.2⟩
  | or _ _ ihl ihr =>
    rw [relatedAt_iff_children rfl rfl rfl rfl, ← ihl, ← ihr]
    exact ⟨fun h => by cases h with | or hl hr => exact ⟨hl, hr⟩, fun h => .or h.1 h.2⟩
  | constraint s c _ =>
    rw [relatedAt_constraint_iff]
    exact ⟨fun h => by cases h with | constraint _ _ h => exact h, .constraint s c⟩

/-- A tree matches itself if each of its literals is related to itself. -/
theorem matched_self_iff (t : Tree) :
    Matched R t t ↔ ∀ p s c a, t.at? p = some (constraint s c a) → R a a := by
  have h : Matched Eq t t := .refl (fun _ => rfl) t
  rw [h.iff_relatedAt]
  constructor
  · exact fun h p s c a ha => h p s c a a ha ha
  · intro h p s c a b ha hb
    obtain rfl : a = b := by
      rw [ha, Option.some.injEq, constraint.injEq] at hb
      exact hb.2.2
    exact h p s c a ha

/-! ### The main result -/

/-- **Equality of trees is a partial equivalence**: it is symmetric and transitive, and a tree equals
itself, and so any copy of it, exactly if no literal in it is a floating point value that is no
number. Constraints with literals of different kinds are never equal. Calendars, and instants, are
equal exactly if they are the same instant whatever their offsets, and a leap second is no ordinary
one; values of which only the string form is known are equal exactly if these are. -/
theorem same_partial_equivalence :
    (∀ t u : Tree, t.same u = u.same t) ∧
      (∀ t u v : Tree, t.same u = true → u.same v = true → t.same v = true) ∧
      (∀ t : Tree, t.same t = true ↔
        ∀ p s c a, t.at? p = some (constraint s c a) → a.isNaN = false) ∧
      (∀ s s' c c' a b, (constraint s c a).same (constraint s' c' b) = true ↔
        s = s' ∧ c = c' ∧ a.same b = true) ∧
      (∀ s s' c c' a b, a.kind ≠ b.kind →
        (constraint s c a).same (constraint s' c' b) = false) ∧
      Literal.ComparedAsInstants .calendar ∧ Literal.ComparedAsInstants .instant ∧
      ∀ f g, (Literal.opaqueForm f).same (.opaqueForm g) = true ↔ f = g := by
  have hsymm : ∀ {t u : Tree}, t.same u = true → u.same t = true := by
    intro t u h
    rw [same_iff_matched] at h ⊢
    exact h.symm .symm
  refine ⟨fun t u => ?_, fun t u v h h' => ?_, fun t => ?_, same_constraint_iff,
    fun s s' c c' a b hkind => ?_, Literal.comparedAsInstants Literal.same_calendar_iff,
    Literal.comparedAsInstants Literal.same_instant_iff, fun f g => beq_iff_eq⟩
  · rw [Bool.eq_iff_iff]
    exact ⟨hsymm, hsymm⟩
  · rw [same_iff_matched] at h h' ⊢
    exact h.trans .trans h'
  · rw [same_iff_matched, matched_self_iff]
    simp only [Literal.Equated.self_iff]
  · rw [← Bool.not_eq_true, same_constraint_iff]
    rintro ⟨-, -, h⟩
    exact hkind (Literal.same_iff_equated.mp h).kind_eq

/-- A new year at three offsets, beside zeros of both signs and beside a value that is no number; the
second before it and the leap second in it; and two kinds of the same text. -/
theorem same_partial_equivalence_of_new_year :
    let evening : DateTime :=
      ⟨(Date.of? 2023 12 31).get rfl, (Time.of? 23 0 0 0).get rfl, -3600, by decide, by decide⟩
    let midnight : DateTime :=
      ⟨(Date.of? 2024 1 1).get rfl, (Time.of? 0 0 0 0).get rfl, 0, by decide, by decide⟩
    let morning : DateTime :=
      ⟨(Date.of? 2024 1 1).get rfl, (Time.of? 5 30 0 0).get rfl, 19800, by decide, by decide⟩
    let second (nano : Nat) (h : nano < 2000000000) : DateTime :=
      ⟨(Date.of? 2023 12 31).get rfl, ⟨23, 59, 59, nano, by decide, by decide, by decide, h⟩, 0,
        by decide, by decide⟩
    let both (date : DateTime) (bits : UInt64) : Tree :=
      (constraint "from" .equals (.calendar date)).and (constraint "sum" .equals (.double bits))
    (both evening 0).same (both midnight 0x8000000000000000) = true ∧
      (both midnight 0x8000000000000000).same (both morning 0) = true ∧
      (both evening 0).same (both morning 0) = true ∧
      (both evening 0x7FF8000000000000).same (both evening 0x7FF8000000000000) ≠ true ∧
      (Literal.calendar evening).same (.calendar morning) = true ∧
      (Literal.instant (second 1000000000 (by decide))).same
        (.instant (second 0 (by decide))) = false ∧
      (Literal.byte 1).encode = (Literal.int 1).encode ∧
      (constraint "n" .equals (.byte 1)).same (constraint "n" .equals (.int 1)) = false := by
  intro evening midnight morning second both
  obtain ⟨-, htrans, hself, -, hkind, hcalendar, hinstant, -⟩ := same_partial_equivalence
  have h : (both evening 0).same (both midnight 0x8000000000000000) = true := by decide +kernel
  have h' : (both midnight 0x8000000000000000).same (both morning 0) = true := by decide +kernel
  have hutc : evening.toUtc? = some midnight := by decide +kernel
  have hutc' : morning.toUtc? = some midnight := by decide +kernel
  refine ⟨h, h', htrans _ _ _ h h', fun hnan => ?_, (hcalendar.utc _ _ _ hutc).mpr hutc',
    hinstant.leap _ _ (Nat.le_refl _) (by decide : 0 < 1000000000), by decide,
    hkind _ _ _ _ _ _ (by decide)⟩
  have hnumber := (hself _).mp hnan [.right] _ _ _ rfl
  revert hnumber
  decide +kernel

end Tree

end QueryTree
