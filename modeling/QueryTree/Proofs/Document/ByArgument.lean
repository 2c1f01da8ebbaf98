import QueryTree.Proofs.Document.Constraint
import QueryTree.Proofs.Document.FirstFault

/-!
# Constraints by their arguments

A constraint whose selector and comparison are in order stands or falls with its argument: it is
accepted with the literal of the argument (`Tree.ofValue_of_hasArgument`), and otherwise it is the
fault of the argument that is reported, in every document in which the constraint comes first among
the faulty nodes (`Yaml.Value.HasArgument.refused`).
-/

namespace QueryTree

open QueryTree.Yaml (Value)

namespace Yaml.Value

/-- The value is a constraint with the selector and the comparison, and with the argument as it
stands in the document; the keys are in any order. -/
def HasArgument (v : Value) (selector : String) (comparison : Comparison) (argument : Value) :
    Prop :=
  ∃ entries key₁ key₂ key₃ v₁ v₂ word, v.untagged = .mapping entries ∧
    entries.Perm [(key₁, v₁), (key₂, v₂), (key₃, argument)] ∧
      key₁.untagged = .text "selector" ∧ key₂.untagged = .text "comparison" ∧
      key₃.untagged = .text "argument" ∧ v₁.untagged = .text selector ∧ selector ≠ "" ∧
      v₂.untagged = .text word ∧ Comparison.read word = .ok comparison

/-- The plain form of a constraint. -/
theorem hasArgument_mapping {selector word : String} {comparison : Comparison} (argument : Value)
    (hselector : selector ≠ "") (hword : Comparison.read word = .ok comparison) :
    HasArgument (.mapping [(.text "selector", .text selector), (.text "comparison", .text word),
      (.text "argument", argument)]) selector comparison argument :=
  ⟨_, _, _, _, _, _, word, rfl, .refl _, rfl, rfl, rfl, rfl, hselector, rfl, hword⟩

/-- Every document in which the value is the first faulty node is refused, with an address that is
the way to the value and the ending. -/
def RefusedWith (v : Value) (ending : String) : Prop :=
  ∀ (document : Value) (p : Route), document.Leads p v → document.LeftAccepted p →
    ∃ f, Tree.ofValue document = .error f ∧ f.address = Fault.addressText p ending

/-! ### Arguments under the name of a kind -/

/-- A scalar under the name of a kind is read again as a scalar that looks the same. -/
theorem exists_reread_typed {key w : Value} {kind : String} (hkey : key.untagged = .text kind)
    (hw : (∃ n, w.untagged = .int n) ∨ ∃ bits, w.untagged = .float bits) :
    ∃ key' w', reread (.mapping [(key, w)]) = .ok (.mapping [(key', w')]) ∧
      Literal.ofValue (.mapping [(key', w')]) = Literal.ofTyped kind w := by
  obtain ⟨key', hkey'⟩ : ∃ key', key.reread = .ok key' := by
    apply exists_reread <;> intro _ h <;> rw [hkey] at h <;> cases h
  obtain ⟨w', hw'⟩ : ∃ w', w.reread = .ok w' := by
    apply exists_reread <;> intro _ h <;> rw [h] at hw <;> simp at hw
  refine ⟨key', w', by rw [reread_single, hkey', hw']; rfl, ?_⟩
  have htext : key'.text? = some kind := by
    rw [← (sameScalar_of_reread hkey').text, text?_eq_some_iff, hkey]
  rw [Literal.ofValue, htext]
  exact (Literal.ofTyped_congr kind (sameScalar_of_reread hw')).symm

end Yaml.Value

namespace Tree

variable {v argument w : Value} {selector : String} {comparison : Comparison}

/-- A constraint whose other fields are in order is read by reading its argument. -/
theorem constraintOf_eq_map {entries : List (Value × Value)} {word : String}
    (hfields : ConstraintFields.ofEntries .none entries = .ok ⟨some selector, some word, some w⟩)
    (hselector : selector ≠ "") (hword : Comparison.read word = .ok comparison) :
    constraintOf entries = (Literal.ofValue w).map (.constraint selector comparison) := by
  rw [constraintOf, hfields]
  show (if selector.isEmpty then _ else _) = _
  rw [if_neg (by simpa using hselector), hword]
  show (Literal.ofValue w >>= fun literal => Except.ok (constraint selector comparison literal)) = _
  cases Literal.ofValue w <;> rfl

theorem ofValue_of_hasArgument (h : v.HasArgument selector comparison argument)
    (hw : argument.reread = .ok w) :
    ofValue v = (Literal.ofValue w).map (.constraint selector comparison) := by
  obtain ⟨entries, key₁, key₂, key₃, v₁, v₂, word, hv, hperm, h₁, h₂, h₃, hs, hempty, hword,
    hread⟩ := h
  rw [ofValue_of_mapping hv (connectiveAmong?_eq_none_of_perm hperm h₁ h₂ h₃)]
  refine constraintOf_eq_map (ConstraintFields.ofEntries_perm hperm.symm ?_) hempty hread
  have hnames : ∀ {key v : Value} {f : Field},
      ConstraintFields.Names (key, v) f ↔ key.untagged = .text f.key := Value.text?_eq_some_iff
  exact (ofEntries_sorted_eq_ok_iff (hnames.mpr h₁) (hnames.mpr h₂) (hnames.mpr h₃)).mpr
    ⟨selector, word, w, hs, hword, hw, rfl⟩

end Tree

namespace Yaml.Value.HasArgument

variable {v argument w : Value} {selector : String} {comparison : Comparison}

/-- A constraint has no nodes below it. -/
theorem isLeaf (h : v.HasArgument selector comparison argument) : v.IsLeaf := by
  obtain ⟨entries, key₁, key₂, key₃, v₁, v₂, word, hv, hperm, -⟩ := h
  rintro c left right ⟨list, hjoined, -⟩
  rw [hv] at hjoined
  cases hjoined
  have hlength := hperm.length_eq
  cases hlength

theorem accepted (h : v.HasArgument selector comparison argument)
    (hw : argument.reread = .ok w) {l : Literal} (hl : Literal.ofValue w = .ok l) :
    Tree.ofValue v = .ok (.constraint selector comparison l) := by
  rw [Tree.ofValue_of_hasArgument h hw, hl]
  rfl

/-- **A faulty argument** is what a document is refused for. -/
theorem refused (h : v.HasArgument selector comparison argument)
    (hw : argument.reread = .ok w) {part : NodePart} {cause : FaultCause}
    (hl : Literal.ofValue w = .error (.here part cause)) :
    v.RefusedWith (Fault.partText part) := by
  intro document p hleads hleft
  have hv : Tree.ofValue v = .error ⟨[], part, cause⟩ := by
    rw [Tree.ofValue_of_hasArgument h hw, hl]
    rfl
  exact ⟨⟨p, part, cause⟩,
    Tree.ofValue_eq_error_iff.mpr ⟨v, ⟨hleads, hleft, h.isLeaf, _, hv⟩, hv⟩, rfl⟩

end Yaml.Value.HasArgument

end QueryTree
