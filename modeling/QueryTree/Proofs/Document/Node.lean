import QueryTree.Proofs.Outcome
import QueryTree.Tree.Reading

/-!
# The nodes of a document

A value joins two others if it is a mapping whose only key is that of a connective, with a sequence
of the two. Reading a tree goes down these values and no others (`Tree.ofValue_of_joins`): what does
not join is read as a constraint or refused on the spot, with a fault of its own
(`Tree.isLocal_ofValue`).
-/

namespace QueryTree

open QueryTree.Yaml (Value)

/-! ### Tags -/

namespace Yaml.Value

theorem text?_eq_some_iff {v : Value} {s : String} : v.text? = some s ↔ v.untagged = .text s := by
  unfold text?
  cases v.untagged <;> simp

/-! ### Joined values -/

/-- The value is a mapping whose only key is that of the connective, with a sequence of the two
values. -/
def Joins (v : Value) (c : Connective) (left right : Value) : Prop :=
  ∃ list, v.untagged = .mapping [(.text c.key, list)] ∧ list.untagged = .sequence [left, right]

/-- What a value joins is determined by it. -/
theorem Joins.unique {v : Value} {c c' : Connective} {left right left' right' : Value}
    (h : v.Joins c left right) (h' : v.Joins c' left' right') :
    c = c' ∧ left = left' ∧ right = right' := by
  obtain ⟨list, hv, hlist⟩ := h
  obtain ⟨list', hv', hlist'⟩ := h'
  rw [hv] at hv'
  simp only [mapping.injEq, List.cons.injEq, Prod.mk.injEq, text.injEq, and_true] at hv'
  obtain ⟨hkey, rfl⟩ := hv'
  rw [hlist] at hlist'
  simp only [sequence.injEq, List.cons.injEq, and_true] at hlist'
  refine ⟨?_, hlist'⟩
  cases c <;> cases c' <;> first | rfl | exact absurd hkey (by decide)

/-- The value joins no others. -/
def IsLeaf (v : Value) : Prop := ∀ c left right, ¬ v.Joins c left right

end Yaml.Value

/-! ### Reading a node -/

namespace Tree

theorem connectiveOf?_eq_some_iff {key : Value} {c : Connective} :
    connectiveOf? key = some c ↔ key = .text c.key := by
  unfold connectiveOf?
  split
  · cases c <;> simp [Connective.key]
  · cases c <;> simp [Connective.key]
  · next hand hor => cases c <;> simp_all [Connective.key]

theorem ofValue_untagged (v : Value) : ofValue v.untagged = ofValue v := by
  fun_induction Value.untagged v with
  | case1 tag v ih => rw [ih, ofValue]
  | case2 v h => rfl

theorem childrenOf_untagged (c : Connective) (v : Value) :
    childrenOf c v.untagged = childrenOf c v := by
  fun_induction Value.untagged v with
  | case1 tag v ih => rw [ih, childrenOf]
  | case2 v h => rfl

/-- The tree of two outcomes that are joined: the left one counts first. -/
def joinOutcomes (c : Connective) (left right : Except Fault Tree) : Except Fault Tree := do
  let left ← left.mapError (Fault.below ⟨c, .left⟩)
  let right ← right.mapError (Fault.below ⟨c, .right⟩)
  .ok (join c left right)

theorem joinOutcomes_eq_error_iff {c : Connective} {x y : Except Fault Tree} {f : Fault} :
    joinOutcomes c x y = .error f ↔
      (∃ g, x = .error g ∧ f = g.below ⟨c, .left⟩) ∨
        ∃ t g, x = .ok t ∧ y = .error g ∧ f = g.below ⟨c, .right⟩ := by
  simp [joinOutcomes, bind_eq_error_iff, mapError_eq_error_iff, mapError_eq_ok_iff,
    eq_comm (a := f)]

theorem joinOutcomes_eq_ok_iff {c : Connective} {x y : Except Fault Tree} {t : Tree} :
    joinOutcomes c x y = .ok t ↔ ∃ a b, x = .ok a ∧ y = .ok b ∧ t = join c a b := by
  simp [joinOutcomes, bind_eq_ok_iff, mapError_eq_ok_iff, eq_comm (a := t)]

/-- A value that joins two others is read by reading these. -/
theorem ofValue_of_joins {v : Value} {c : Connective} {left right : Value}
    (h : v.Joins c left right) : ofValue v = joinOutcomes c (ofValue left) (ofValue right) := by
  obtain ⟨list, hv, hlist⟩ := h
  rw [← ofValue_untagged, hv, ofValue, connectiveOf?_eq_some_iff.mpr rfl]
  show childrenOf c list = _
  rw [← childrenOf_untagged, hlist, childrenOf]
  rfl

theorem connectiveAmong?_eq_none_iff {entries : List (Value × Value)} :
    connectiveAmong? entries = none ↔ ∀ e ∈ entries, connectiveOf? e.1 = none := by
  constructor
  · intro h e he
    cases hc : connectiveOf? e.1 with
    | none => rfl
    | some c =>
      have hmem : c ∈ [Connective.and, .or] := by cases c <;> simp
      have hnot := List.find?_eq_none.mp h c hmem
      exact absurd (List.any_eq_true.mpr ⟨e, he, by simp [hc]⟩) hnot
  · intro h
    refine List.find?_eq_none.mpr fun c _ hany => ?_
    obtain ⟨e, he, hc⟩ := List.any_eq_true.mp hany
    rw [h e he] at hc
    cases hc

/-- A mapping without the key of a connective is read as a constraint. -/
theorem ofValue_of_mapping {v : Value} {entries : List (Value × Value)}
    (hv : v.untagged = .mapping entries) (h : connectiveAmong? entries = none) :
    ofValue v = constraintOf entries := by
  rw [← ofValue_untagged, hv]
  by_cases hone : ∃ key list, entries = [(key, list)]
  · obtain ⟨key, list, rfl⟩ := hone
    have hkey : connectiveOf? key = none :=
      connectiveAmong?_eq_none_iff.mp h _ (List.mem_singleton_self _)
    rw [ofValue, hkey]
  · rw [ofValue, h]
    intro key list heq
    exact hone ⟨key, list, heq⟩

theorem ofValue_of_not_mapping {v : Value} (h : ∀ entries, v.untagged ≠ .mapping entries) :
    ofValue v = .error (.here .whole .notMapping) := by
  fun_induction Value.untagged v with
  | case1 tag v ih => rw [ofValue, ih h]
  | case2 v htag =>
    cases v with
    | mapping entries => exact absurd rfl (h entries)
    | tagged tag v => exact absurd rfl (htag tag v)
    | _ => rfl

theorem childrenOf_of_not_pair (c : Connective) {v : Value}
    (h : ∀ left right, v.untagged ≠ .sequence [left, right]) :
    childrenOf c v = .error (.here (.children c) .notTwoNodes) := by
  fun_induction Value.untagged v with
  | case1 tag v ih => rw [childrenOf, ih h]
  | case2 v htag =>
    cases v with
    | sequence items =>
      match items with
      | [] => rfl
      | [_] => rfl
      | [left, right] => exact absurd rfl (h left right)
      | _ :: _ :: _ :: _ => rfl
    | tagged tag v => exact absurd rfl (htag tag v)
    | _ => rfl

/-- **How a leaf is read**: it is a mapping that is read as a constraint, or it is refused on the
spot. -/
theorem ofValue_of_isLeaf {v : Value} (h : v.IsLeaf) :
    (∃ entries, v.untagged = .mapping entries ∧ connectiveAmong? entries = none ∧
        ofValue v = constraintOf entries) ∨
      ∃ part cause, ofValue v = .error (.here part cause) := by
  by_cases hmapping : ∀ entries, v.untagged ≠ .mapping entries
  · exact .inr ⟨_, _, ofValue_of_not_mapping hmapping⟩
  obtain ⟨entries, hv⟩ : ∃ entries, v.untagged = .mapping entries := by simpa using hmapping
  cases hamong : connectiveAmong? entries with
  | none => exact .inl ⟨entries, hv, hamong, ofValue_of_mapping hv hamong⟩
  | some c =>
    right
    rw [← ofValue_untagged, hv]
    by_cases hone : ∃ key list, entries = [(key, list)]
    · -- the only key is that of a connective, so it is the list that is at fault
      obtain ⟨key, list, rfl⟩ := hone
      obtain ⟨c, hc⟩ : ∃ c, connectiveOf? key = some c := by
        rw [← Option.ne_none_iff_exists']
        intro hkey
        rw [connectiveAmong?_eq_none_iff.mpr (by simpa using hkey)] at hamong
        cases hamong
      rw [ofValue, hc]
      refine ⟨_, _, childrenOf_of_not_pair c fun left right hlist => ?_⟩
      obtain rfl := connectiveOf?_eq_some_iff.mp hc
      exact h c left right ⟨list, hv, hlist⟩
    · rw [ofValue, hamong]
      · exact ⟨_, _, rfl⟩
      · intro key list heq
        exact hone ⟨key, list, heq⟩

/-! ### Faults of a leaf -/

/-- The outcome is no fault, or a fault of the node itself. -/
def IsLocal {α : Type} (x : Except Fault α) : Prop := ∀ f, x = .error f → f.steps = []

theorem isLocal_ok {α : Type} (a : α) : IsLocal (.ok a) := by
  intro f h
  cases h

theorem isLocal_here {α : Type} (part : NodePart) (cause : FaultCause) :
    IsLocal (.error (.here part cause) : Except Fault α) := by
  intro f h
  cases h
  rfl

theorem IsLocal.bind {α β : Type} {x : Except Fault α} {next : α → Except Fault β}
    (hx : IsLocal x) (hnext : ∀ a, IsLocal (next a)) : IsLocal (x >>= next) := by
  intro f h
  rcases bind_eq_error_iff.mp h with h | ⟨a, -, h⟩
  · exact hx f h
  · exact hnext a f h

theorem IsLocal.map {α β : Type} {x : Except Fault α} (g : α → β) (hx : IsLocal x) :
    IsLocal (x.map g) := fun f h => hx f (map_eq_error_iff.mp h)

end Tree

namespace Literal

open QueryTree.Tree (IsLocal isLocal_ok isLocal_here)

theorem isLocal_integerOf (part : NodePart) (least greatest : Int) (v : Value) :
    IsLocal (integerOf part least greatest v) := by
  unfold integerOf
  split
  · split
    · exact isLocal_ok _
    · exact isLocal_here _ _
  · exact isLocal_here _ _

theorem isLocal_numberOf (part : NodePart) (v : Value) : IsLocal (numberOf part v) := by
  unfold numberOf
  split
  · exact isLocal_ok _
  · exact isLocal_here _ _

theorem isLocal_textOf (part : NodePart) (v : Value) : IsLocal (textOf part v) := by
  unfold textOf
  split
  · exact isLocal_ok _
  · exact isLocal_here _ _

theorem isLocal_dateTimeOf (part : NodePart) (v : Value) : IsLocal (dateTimeOf part v) := by
  refine (isLocal_textOf part v).bind fun s => ?_
  split
  · exact isLocal_ok _
  · exact isLocal_here _ _

theorem isLocal_dateOf (part : NodePart) (v : Value) : IsLocal (dateOf part v) := by
  refine (isLocal_textOf part v).bind fun s => ?_
  split
  · exact isLocal_ok _
  · exact isLocal_here _ _

theorem isLocal_ofTyped (kind : String) (v : Value) : IsLocal (ofTyped kind v) := by
  unfold ofTyped
  dsimp only
  split
  · split
    · exact isLocal_ok _
    · exact isLocal_here _ _
  iterate 4 exact (isLocal_integerOf _ _ _ _).map _
  iterate 2 exact (isLocal_numberOf _ _).map _
  · exact (isLocal_dateOf _ _).map _
  iterate 2 exact (isLocal_dateTimeOf _ _).map _
  iterate 2 exact (isLocal_textOf _ _).map _
  · exact isLocal_here _ _

theorem isLocal_ofValue (v : Value) : IsLocal (ofValue v) := by
  unfold ofValue
  split
  · exact isLocal_ok _
  · exact isLocal_ok _
  · split
    · exact isLocal_ok _
    · split
      · exact isLocal_ok _
      · exact isLocal_here _ _
  · exact isLocal_ok _
  · split
    · exact isLocal_ofTyped _ _
    · exact isLocal_here _ _
  · exact isLocal_here _ _

end Literal

namespace ConstraintFields

open QueryTree.Tree (IsLocal isLocal_ok isLocal_here)

theorem isLocal_set (c : ConstraintFields) (f : Field) (v : Value) : IsLocal (c.set f v) := by
  have htext : IsLocal (textOf v) := by
    unfold textOf
    split
    · exact isLocal_ok _
    · exact isLocal_here _ _
  have hargument : IsLocal (argumentOf v) := by
    intro f h
    obtain ⟨key, -, rfl⟩ := mapError_eq_error_iff.mp h
    rfl
  unfold set
  split
  · exact isLocal_here _ _
  · split
    · exact htext.map _
    · exact htext.map _
    · exact hargument.map _

theorem isLocal_fieldOf (key : Value) : IsLocal (fieldOf key) := by
  unfold fieldOf
  split
  · exact isLocal_here _ _
  · split
    · exact isLocal_ok _
    · exact isLocal_here _ _

theorem isLocal_ofEntries (c : ConstraintFields) (entries : List (Value × Value)) :
    IsLocal (ofEntries c entries) := by
  induction entries generalizing c with
  | nil => exact isLocal_ok _
  | cons entry rest ih =>
    exact (isLocal_fieldOf entry.1).bind fun f => (isLocal_set c f entry.2).bind fun c => ih c

theorem isLocal_require {α : Type} (f : Field) (a : Option α) : IsLocal (require f a) := by
  cases a with
  | none => exact isLocal_here _ _
  | some a => exact isLocal_ok _

end ConstraintFields

namespace Tree

open ConstraintFields in
theorem isLocal_constraintOf (entries : List (Value × Value)) :
    IsLocal (constraintOf entries) := by
  refine (isLocal_ofEntries _ _).bind fun fields => (isLocal_require _ _).bind fun selector =>
    (isLocal_require _ _).bind fun word => (isLocal_require _ _).bind fun argument => ?_
  split
  · exact isLocal_here _ _
  · split
    · exact isLocal_here _ _
    · exact (Literal.isLocal_ofValue _).bind fun literal => isLocal_ok _

/-- **The faults of a leaf are its own.** -/
theorem isLocal_ofValue {v : Value} (h : v.IsLeaf) : IsLocal (ofValue v) := by
  rcases ofValue_of_isLeaf h with ⟨entries, -, -, hv⟩ | ⟨part, cause, hv⟩
  · rw [hv]
    exact isLocal_constraintOf entries
  · rw [hv]
    exact isLocal_here part cause

end Tree

end QueryTree
