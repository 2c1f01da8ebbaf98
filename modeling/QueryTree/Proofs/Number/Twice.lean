import Mathlib.Tactic.FieldSimp
import QueryTree.Proofs.Number.Ratio

/-!
# Rounding twice

A number that is rounded to one format and the result to a narrower one is not always rounded to
the nearest value of the narrower format. It goes wrong in one way only: the first rounding ends on
a midpoint of the narrower format, and the number itself lies beyond that midpoint
(`RoundsTo.twice_iff`). This needs no more than that the midpoints of the narrower format are values
of the wider one, as they are for 32 and 64 bits (`exists_value_eq_midpoint`).
-/

namespace QueryTree.Number.Format

variable {f g : Format} {m n s : Nat} {x : ℚ}

/-! ### Midpoints -/

/-- The midpoint between a magnitude and the next one. -/
def midpoint (f : Format) (m : Nat) : ℚ := (f.value m + f.value (m + 1)) / 2

/-- Rounding to a magnitude, by the midpoints before and behind it. -/
theorem roundsTo_iff_between (hx : 0 ≤ x) :
    f.RoundsTo m x ↔ (x < f.midpoint m ∨ (x = f.midpoint m ∧ m % 2 = 0)) ∧
      ∀ k, m = k + 1 → f.midpoint k < x ∨ (x = f.midpoint k ∧ m % 2 = 0) := by
  have hmid : ∀ k, x = f.midpoint k ↔ 2 * x = f.value k + f.value (k + 1) := fun k => by
    rw [midpoint, eq_div_iff two_ne_zero, mul_comm]
  rw [roundsTo_iff_midpoints hx, hmid, midpoint, lt_div_iff₀' two_pos]
  refine and_congr_right' (forall_congr' fun k => forall_congr' fun hk => ?_)
  subst hk
  rw [hmid, midpoint, div_lt_iff₀' two_pos, @eq_comm _ (2 * x)]

/-! ### The one way of going wrong -/

/-- The number `d` is the midpoint at an end of what rounds to the magnitude, and `x` lies beyond
that end. -/
def IsMissed (f : Format) (m : Nat) (d x : ℚ) : Prop :=
  (d = f.midpoint m ∧ d < x) ∨ ∃ k, m = k + 1 ∧ d = f.midpoint k ∧ x < d

/-- **Rounding twice** ends on the nearest value unless the number lies just beyond a midpoint on
which the first rounding ends. -/
theorem RoundsTo.twice_iff {d : Nat} (hmid : ∀ k, ∃ n, g.value n = f.midpoint k) (hx : 0 ≤ x)
    (hd : g.RoundsTo d x) (hm : f.RoundsTo m (g.value d)) :
    f.RoundsTo m x ↔ ¬f.IsMissed m (g.value d) x := by
  -- a midpoint is a value of the wider format, so the first rounding does not cross it
  have habove : ∀ k, f.midpoint k ≤ x → f.midpoint k ≤ g.value d := fun k hk => by
    obtain ⟨n, hn⟩ := hmid k
    rw [← hn] at hk ⊢
    exact hd.le_value hk
  have hbelow : ∀ k, x ≤ f.midpoint k → g.value d ≤ f.midpoint k := fun k hk => by
    obtain ⟨n, hn⟩ := hmid k
    rw [← hn] at hk ⊢
    exact hd.value_le hk
  have hkept : ∀ k, x = f.midpoint k → g.value d = f.midpoint k := fun k hk =>
    le_antisymm (hbelow k hk.le) (habove k hk.ge)
  obtain ⟨hhigh, hlow⟩ := (roundsTo_iff_between (g.value_nonneg d)).mp hm
  rw [roundsTo_iff_between hx]
  constructor
  · rintro ⟨hhigh', hlow'⟩ (⟨hd', hlt⟩ | ⟨k, rfl, hd', hlt⟩)
    · rcases hhigh' with h | ⟨h, -⟩ <;> linarith
    · rcases hlow' k rfl with h | ⟨h, -⟩ <;> linarith
  · intro hmissed
    refine ⟨?_, fun k hk => ?_⟩
    · rcases lt_trichotomy x (f.midpoint m) with hlt | heq | hgt
      · exact .inl hlt
      · exact .inr ⟨heq, (hhigh.resolve_left (hkept m heq).not_lt).2⟩
      · have hend := (hhigh.resolve_left (habove m hgt.le).not_gt).1
        exact absurd (.inl ⟨hend, hend ▸ hgt⟩) hmissed
    · rcases lt_trichotomy x (f.midpoint k) with hlt | heq | hgt
      · have hend := ((hlow k hk).resolve_left (hbelow k hlt.le).not_gt).1
        exact absurd (.inr ⟨k, hk, hend, hend ▸ hlt⟩) hmissed
      · exact .inr ⟨heq, ((hlow k hk).resolve_left (hkept k heq).symm.not_lt).2⟩
      · exact .inl hgt

/-- A number that the wider format has is rounded once only. -/
theorem RoundsTo.of_exact {d : Nat} (hd : g.RoundsTo d (g.value n))
    (hm : f.RoundsTo m (g.value d)) : f.RoundsTo m (g.value n) := by
  rwa [hd.unique (g.roundsTo_value n)] at hm

/-! ### 32 and 64 bits -/

/-- A short enough significand times a power of two is a value, and its magnitude is bounded. -/
theorem exists_value (hs : s < 2 * f.hidden) (k : Nat) :
    ∃ n, f.value n = s * 2 ^ k / 2 ^ f.scale ∧ n ≤ s + k * f.hidden := by
  obtain ⟨n, hunits, hle⟩ := exists_units hs k
  refine ⟨n, ?_, hle⟩
  rw [value_eq_units, hunits]
  push_cast
  rfl

theorem midpoint_eq (f : Format) (m : Nat) :
    f.midpoint m = (2 * f.significand m + 1 : Nat) * 2 ^ f.order m / 2 ^ (f.scale + 1) := by
  rw [midpoint, value_eq_units, value_eq_units, units_succ, units, pow_succ (2 : ℚ) f.scale]
  push_cast
  field_simp
  ring

/-- The midpoints of the format with 32 bits are values of the one with 64 bits. -/
theorem exists_value_eq_midpoint (k : Nat) : ∃ n, double.value n = single.midpoint k := by
  obtain ⟨p, hscale⟩ : ∃ p, double.scale = p + (single.scale + 1) :=
    ⟨double.scale - (single.scale + 1), by decide⟩
  have hsig : 2 * single.significand k + 1 < 2 * double.hidden := by
    have := single.significand_lt k
    have : 4 * single.hidden + 1 < 2 * double.hidden := by decide
    omega
  obtain ⟨n, hn, -⟩ := exists_value hsig (single.order k + p)
  refine ⟨n, ?_⟩
  rw [hn, midpoint_eq, hscale, div_eq_div_iff (by positivity) (by positivity), pow_add, pow_add]
  ring

end QueryTree.Number.Format
