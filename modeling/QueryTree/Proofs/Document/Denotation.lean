import QueryTree.Proofs.Document.Constraint

/-!
# What documents denote

The grammar of tree documents (`Tree.Denotes`): which value stands for which tree, whatever the
order of the keys in its mappings. `Tree.ofValue_eq_ok_iff_denotes` says that the reader accepts
exactly these values, with these trees.
-/

namespace QueryTree

open QueryTree.Yaml (Value)

namespace Tree

/-- The tree that a value stands for. A mapping whose only key is that of a connective, with a
sequence of two values, stands for the trees of these values joined; a mapping with exactly the keys
of a constraint stands for the constraint. -/
inductive Denotes : Value → Tree → Prop where
  | join {v left right : Value} {c : Connective} {a b : Tree} :
    v.Joins c left right → Denotes left a → Denotes right b → Denotes v (Tree.join c a b)
  | constraint {v : Value} {entries : List (Value × Value)} {selector : String}
      {comparison : Comparison} {argument : Literal} :
    v.untagged = .mapping entries → DenotesConstraint entries selector comparison argument →
    Denotes v (.constraint selector comparison argument)

/-- How a value is accepted: it joins two accepted values, or it is a constraint. -/
theorem ofValue_eq_ok_iff {v : Value} {t : Tree} :
    ofValue v = .ok t ↔
      (∃ c left right a b, v.Joins c left right ∧ ofValue left = .ok a ∧ ofValue right = .ok b ∧
        t = join c a b) ∨
      ∃ entries selector comparison argument, v.untagged = .mapping entries ∧
        DenotesConstraint entries selector comparison argument ∧
        t = .constraint selector comparison argument := by
  constructor
  · intro h
    by_cases hleaf : v.IsLeaf
    · right
      rcases ofValue_of_isLeaf hleaf with ⟨entries, hv, -, hread⟩ | ⟨part, cause, hread⟩
      · rw [hread, constraintOf_eq_ok_iff] at h
        obtain ⟨selector, comparison, argument, hdenotes, rfl⟩ := h
        exact ⟨entries, selector, comparison, argument, hv, hdenotes, rfl⟩
      · rw [hread] at h
        cases h
    · left
      obtain ⟨c, left, right, hjoins⟩ : ∃ c left right, v.Joins c left right := by
        simpa [Value.IsLeaf] using hleaf
      rw [ofValue_of_joins hjoins, joinOutcomes_eq_ok_iff] at h
      obtain ⟨a, b, ha, hb, rfl⟩ := h
      exact ⟨c, left, right, a, b, hjoins, ha, hb, rfl⟩
  · rintro (⟨c, left, right, a, b, hjoins, ha, hb, rfl⟩ |
      ⟨entries, selector, comparison, argument, hv, hdenotes, rfl⟩)
    · rw [ofValue_of_joins hjoins, joinOutcomes_eq_ok_iff]
      exact ⟨a, b, ha, hb, rfl⟩
    · rw [ofValue_of_mapping hv hdenotes.connectiveAmong?_eq_none, constraintOf_eq_ok_iff]
      exact ⟨selector, comparison, argument, hdenotes, rfl⟩

theorem join_inj {c c' : Connective} {a b a' b' : Tree} (h : join c a b = join c' a' b') :
    c = c' ∧ a = a' ∧ b = b' := by
  cases c <;> cases c' <;> cases h <;> exact ⟨rfl, rfl, rfl⟩

theorem join_ne_constraint {c : Connective} {a b : Tree} {selector : String}
    {comparison : Comparison} {argument : Literal} :
    join c a b ≠ .constraint selector comparison argument := by
  cases c <;> exact Tree.noConfusion

/-- A joined tree is read from a value that joins the values of its two trees. -/
theorem ofValue_eq_ok_join_iff {v : Value} {c : Connective} {a b : Tree} :
    ofValue v = .ok (join c a b) ↔
      ∃ left right, v.Joins c left right ∧ ofValue left = .ok a ∧ ofValue right = .ok b := by
  rw [ofValue_eq_ok_iff]
  constructor
  · rintro (⟨c', left, right, a', b', hjoins, ha, hb, heq⟩ | ⟨_, _, _, _, -, -, heq⟩)
    · obtain ⟨rfl, rfl, rfl⟩ := join_inj heq
      exact ⟨left, right, hjoins, ha, hb⟩
    · exact absurd heq join_ne_constraint
  · rintro ⟨left, right, hjoins, ha, hb⟩
    exact .inl ⟨c, left, right, a, b, hjoins, ha, hb, rfl⟩

theorem denotes_of_ofValue {v : Value} {t : Tree} (h : ofValue v = .ok t) : Denotes v t := by
  induction t generalizing v with
  | and a b iha ihb =>
    obtain ⟨left, right, hjoins, ha, hb⟩ := (ofValue_eq_ok_join_iff (c := .and)).mp h
    exact .join hjoins (iha ha) (ihb hb)
  | or a b iha ihb =>
    obtain ⟨left, right, hjoins, ha, hb⟩ := (ofValue_eq_ok_join_iff (c := .or)).mp h
    exact .join hjoins (iha ha) (ihb hb)
  | constraint selector comparison argument =>
    rcases ofValue_eq_ok_iff.mp h with ⟨_, _, _, _, _, -, -, -, heq⟩ | ⟨_, _, _, _, hv, hd, heq⟩
    · exact absurd heq.symm join_ne_constraint
    · cases heq
      exact .constraint hv hd

theorem ofValue_of_denotes {v : Value} {t : Tree} (h : Denotes v t) : ofValue v = .ok t := by
  induction h with
  | join hjoins _ _ iha ihb => exact ofValue_eq_ok_join_iff.mpr ⟨_, _, hjoins, iha, ihb⟩
  | constraint hv hd => exact ofValue_eq_ok_iff.mpr (.inr ⟨_, _, _, _, hv, hd, rfl⟩)

/-- **The reader accepts exactly what denotes a tree**, with that tree, and it refuses all else. -/
theorem ofValue_eq_ok_iff_denotes (v : Value) :
    (∀ t, ofValue v = .ok t ↔ Denotes v t) ∧
      ((∃ f, ofValue v = .error f) ↔ ∀ t, ¬ Denotes v t) := by
  refine ⟨fun t => ⟨denotes_of_ofValue, ofValue_of_denotes⟩, ?_⟩
  constructor
  · rintro ⟨f, hf⟩ t hd
    rw [ofValue_of_denotes hd] at hf
    cases hf
  · intro h
    cases hv : ofValue v with
    | error f => exact ⟨f, rfl⟩
    | ok t => exact absurd (denotes_of_ofValue hv) (h t)

end Tree

end QueryTree
