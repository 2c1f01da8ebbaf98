import Mathlib.Data.List.Perm.Basic
import QueryTree.Proofs.Document.Argument

/-!
# What constraints denote

The entries that stand for a constraint, in any order (`Tree.DenotesConstraint`). The reader sets
one field after the other, and two fields may be set in either order, so reading the entries of a
mapping comes to reading them in the order of the fields (`Tree.constraintOf_eq_ok_iff`).
-/

namespace QueryTree

open QueryTree.Yaml (Value)

/-! ### The entries of a constraint -/

namespace Field

theorem ofKey?_eq_some_iff {s : String} {f : Field} : ofKey? s = some f ↔ s = f.key := by
  constructor
  · intro h
    exact (eq_of_beq (List.find?_some h :)).symm
  · rintro rfl
    cases f <;> rfl

theorem mem_all (f : Field) : f ∈ all := by cases f <;> decide

end Field

namespace ConstraintFields

/-- The entry has the key of the field. -/
def Names (e : Value × Value) (f : Field) : Prop := e.1.text? = some f.key

theorem Names.unique {e : Value × Value} {f g : Field} (hf : Names e f) (hg : Names e g) :
    f = g := by
  have hkey : f.key = g.key := Option.some.inj (hf.symm.trans hg)
  rw [← Option.some_inj, ← Field.ofKey?_eq_some_iff.mpr rfl, hkey, Field.ofKey?_eq_some_iff]

theorem fieldOf_eq_ok_iff {key : Value} {f : Field} :
    fieldOf key = .ok f ↔ key.text? = some f.key := by
  unfold fieldOf
  cases key.text? with
  | none => simp
  | some s =>
    simp only [Option.some.injEq, ← Field.ofKey?_eq_some_iff]
    cases Field.ofKey? s <;> simp

theorem ofEntries_cons_eq_ok_iff {c c' : ConstraintFields} {e : Value × Value}
    {rest : List (Value × Value)} : ofEntries c (e :: rest) = .ok c' ↔
      ∃ f c₁, Names e f ∧ c.set f e.2 = .ok c₁ ∧ ofEntries c₁ rest = .ok c' := by
  obtain ⟨key, v⟩ := e
  rw [ofEntries, bind_eq_ok_iff]
  constructor
  · rintro ⟨f, hf, h⟩
    obtain ⟨c₁, hc₁, h⟩ := bind_eq_ok_iff.mp h
    exact ⟨f, c₁, fieldOf_eq_ok_iff.mp hf, hc₁, h⟩
  · rintro ⟨f, c₁, hf, hc₁, h⟩
    exact ⟨f, fieldOf_eq_ok_iff.mpr hf, bind_eq_ok_iff.mpr ⟨c₁, hc₁, h⟩⟩

theorem textOf_eq_ok_iff {v : Value} {s : String} :
    textOf v = .ok s ↔ v.untagged = .text s := by
  rw [← Value.text?_eq_some_iff]
  unfold textOf
  cases v.text? <;> simp

theorem argumentOf_eq_ok_iff {v w : Value} : argumentOf v = .ok w ↔ v.reread = .ok w :=
  mapError_eq_ok_iff

theorem set_selector_eq_ok_iff {c c' : ConstraintFields} {v : Value} :
    c.set .selector v = .ok c' ↔
      c.selector = .none ∧ ∃ s, v.untagged = .text s ∧ { c with selector := some s } = c' := by
  obtain ⟨selector, comparison, argument⟩ := c
  simp only [set, has, ← textOf_eq_ok_iff]
  cases selector <;> simp [map_eq_ok_iff]

theorem set_comparison_eq_ok_iff {c c' : ConstraintFields} {v : Value} :
    c.set .comparison v = .ok c' ↔
      c.comparison = .none ∧ ∃ s, v.untagged = .text s ∧ { c with comparison := some s } = c' := by
  obtain ⟨selector, comparison, argument⟩ := c
  simp only [set, has, ← textOf_eq_ok_iff]
  cases comparison <;> simp [map_eq_ok_iff]

theorem set_argument_eq_ok_iff {c c' : ConstraintFields} {v : Value} :
    c.set .argument v = .ok c' ↔
      c.argument = .none ∧ ∃ w, v.reread = .ok w ∧ { c with argument := some w } = c' := by
  obtain ⟨selector, comparison, argument⟩ := c
  simp only [set, has, ← argumentOf_eq_ok_iff]
  cases argument <;> simp [map_eq_ok_iff]

theorem require_eq_ok_iff {α : Type} {f : Field} {o : Option α} {a : α} :
    require f o = .ok a ↔ o = some a := by
  cases o <;> simp [require]

/-- A field is set once, and it alone. -/
theorem has_of_set {c c' : ConstraintFields} {f : Field} {v : Value} (h : c.set f v = .ok c') :
    c.has f = false ∧ ∀ g, c'.has g = true ↔ c.has g = true ∨ g = f := by
  cases f with
  | selector =>
    obtain ⟨hc, s, -, rfl⟩ := set_selector_eq_ok_iff.mp h
    exact ⟨by rw [has, hc]; rfl, fun g => by cases g <;> simp [has]⟩
  | comparison =>
    obtain ⟨hc, s, -, rfl⟩ := set_comparison_eq_ok_iff.mp h
    exact ⟨by rw [has, hc]; rfl, fun g => by cases g <;> simp [has]⟩
  | argument =>
    obtain ⟨hc, w, -, rfl⟩ := set_argument_eq_ok_iff.mp h
    exact ⟨by rw [has, hc]; rfl, fun g => by cases g <;> simp [has]⟩

/-- Two fields may be set in either order. -/
theorem set_comm {c c₁ c₂ : ConstraintFields} {f g : Field} {v w : Value}
    (h₁ : c.set f v = .ok c₁) (h₂ : c₁.set g w = .ok c₂) :
    ∃ c₁', c.set g w = .ok c₁' ∧ c₁'.set f v = .ok c₂ := by
  cases f <;> cases g <;>
    simp only [set_selector_eq_ok_iff, set_comparison_eq_ok_iff, set_argument_eq_ok_iff]
      at h₁ h₂ ⊢ <;>
    obtain ⟨hc, a, ha, rfl⟩ := h₁ <;> obtain ⟨hc', b, hb, rfl⟩ := h₂ <;>
    first
    | cases hc'
    | exact ⟨_, ⟨hc', b, hb, rfl⟩, hc, a, ha, rfl⟩

/-- **The order of the keys does not count.** -/
theorem ofEntries_perm {entries entries' : List (Value × Value)} (h : entries.Perm entries')
    {c c' : ConstraintFields} (hc : ofEntries c entries = .ok c') :
    ofEntries c entries' = .ok c' := by
  induction h generalizing c with
  | nil => exact hc
  | cons e _ ih =>
    obtain ⟨f, c₁, hf, hset, hrest⟩ := ofEntries_cons_eq_ok_iff.mp hc
    exact ofEntries_cons_eq_ok_iff.mpr ⟨f, c₁, hf, hset, ih hrest⟩
  | swap e e' rest =>
    obtain ⟨g, c₁, hg, hset, hrest⟩ := ofEntries_cons_eq_ok_iff.mp hc
    obtain ⟨f, c₂, hf, hset', hrest⟩ := ofEntries_cons_eq_ok_iff.mp hrest
    obtain ⟨c₁', hset, hset'⟩ := set_comm hset hset'
    exact ofEntries_cons_eq_ok_iff.mpr
      ⟨f, c₁', hf, hset, ofEntries_cons_eq_ok_iff.mpr ⟨g, c₂, hg, hset', hrest⟩⟩
  | trans _ _ ih₁ ih₂ => exact ih₂ (ih₁ hc)

/-- The entries that are read name different fields, and these are the fields that are set. -/
theorem names_of_ofEntries {c c' : ConstraintFields} {entries : List (Value × Value)}
    (h : ofEntries c entries = .ok c') :
    ∃ fields, List.Forall₂ Names entries fields ∧ fields.Nodup ∧
      (∀ f ∈ fields, c.has f = false) ∧ ∀ f, c'.has f = true ↔ c.has f = true ∨ f ∈ fields := by
  induction entries generalizing c with
  | nil =>
    cases h
    exact ⟨[], .nil, List.nodup_nil, by simp, by simp⟩
  | cons e rest ih =>
    obtain ⟨f, c₁, hname, hset, hrest⟩ := ofEntries_cons_eq_ok_iff.mp h
    obtain ⟨fields, hnames, hnodup, hfree, hset'⟩ := ih hrest
    obtain ⟨hf, hc₁⟩ := has_of_set hset
    have hnot : f ∉ fields := by
      intro hmem
      have := hfree f hmem
      rw [(hc₁ f).mpr (.inr rfl)] at this
      cases this
    refine ⟨f :: fields, .cons hname hnames, List.nodup_cons.mpr ⟨hnot, hnodup⟩, ?_, ?_⟩
    · rintro g (_ | ⟨_, hg⟩)
      · exact hf
      · have := hfree g hg
        rw [← Bool.not_eq_true] at this ⊢
        exact fun h => this ((hc₁ g).mpr (.inl h))
    · intro g
      rw [hset' g, hc₁ g, List.mem_cons, or_assoc]

/-- A mapping whose entries set all fields has one entry for each. -/
theorem perm_of_ofEntries {c : ConstraintFields} {entries : List (Value × Value)}
    (h : ofEntries .none entries = .ok c) (hall : ∀ f, c.has f = true) :
    ∃ selector comparison argument, entries.Perm [selector, comparison, argument] ∧
      Names selector .selector ∧ Names comparison .comparison ∧ Names argument .argument := by
  obtain ⟨fields, hnames, hnodup, -, hset⟩ := names_of_ofEntries h
  have hmem : ∀ f, f ∈ fields := by
    intro f
    rcases (hset f).mp (hall f) with hnone | hmem
    · cases f <;> cases hnone
    · exact hmem
  have hfields : fields.Perm Field.all :=
    (List.perm_ext_iff_of_nodup hnodup (by decide)).mpr fun f =>
      iff_of_true (hmem f) (Field.mem_all f)
  have hcomp : Relation.Comp (List.Forall₂ Names) List.Perm entries Field.all :=
    ⟨fields, hnames, hfields⟩
  rw [List.forall₂_comp_perm_eq_perm_comp_forall₂] at hcomp
  obtain ⟨sorted, hperm, hsorted⟩ := hcomp
  cases hsorted with
  | cons hselector hsorted =>
    cases hsorted with
    | cons hcomparison hsorted =>
      cases hsorted with
      | cons hargument hsorted =>
        cases hsorted
        exact ⟨_, _, _, hperm, hselector, hcomparison, hargument⟩

end ConstraintFields

/-! ### Constraints -/

namespace Tree

/-- The entries are those of a constraint, in any order: a selector, which is a text that is not
empty, the sign or the name of a comparison, and an argument. -/
def DenotesConstraint (entries : List (Value × Value)) (selector : String)
    (comparison : Comparison) (argument : Literal) : Prop :=
  ∃ key₁ key₂ key₃ v₁ v₂ v₃ word,
    entries.Perm [(key₁, v₁), (key₂, v₂), (key₃, v₃)] ∧
      key₁.untagged = .text "selector" ∧ key₂.untagged = .text "comparison" ∧
      key₃.untagged = .text "argument" ∧ v₁.untagged = .text selector ∧ selector ≠ "" ∧
      v₂.untagged = .text word ∧ Comparison.read word = .ok comparison ∧
      Literal.OfArgument v₃ argument

/-- Entries with the keys of a constraint have no key of a connective. -/
theorem connectiveAmong?_eq_none_of_perm {entries : List (Value × Value)}
    {key₁ key₂ key₃ v₁ v₂ v₃ : Value}
    (hperm : entries.Perm [(key₁, v₁), (key₂, v₂), (key₃, v₃)])
    (h₁ : key₁.untagged = .text "selector") (h₂ : key₂.untagged = .text "comparison")
    (h₃ : key₃.untagged = .text "argument") : connectiveAmong? entries = none := by
  have hkey : ∀ {key : Value} {s : String}, key.untagged = .text s → (∀ c, s ≠ Connective.key c) →
      connectiveOf? key = none := by
    intro key s hs hne
    by_contra hsome
    obtain ⟨c, hc⟩ := Option.ne_none_iff_exists'.mp hsome
    obtain rfl := connectiveOf?_eq_some_iff.mp hc
    exact hne c (Value.text.inj hs).symm
  refine connectiveAmong?_eq_none_iff.mpr fun e he => ?_
  have hmem := hperm.mem_iff.mp he
  simp only [List.mem_cons, List.not_mem_nil, or_false] at hmem
  rcases hmem with rfl | rfl | rfl
  · exact hkey h₁ fun c => by cases c <;> decide
  · exact hkey h₂ fun c => by cases c <;> decide
  · exact hkey h₃ fun c => by cases c <;> decide

theorem DenotesConstraint.connectiveAmong?_eq_none {entries : List (Value × Value)}
    {selector : String} {comparison : Comparison} {argument : Literal}
    (h : DenotesConstraint entries selector comparison argument) :
    connectiveAmong? entries = none := by
  obtain ⟨key₁, key₂, key₃, v₁, v₂, v₃, word, hperm, h₁, h₂, h₃, -⟩ := h
  exact connectiveAmong?_eq_none_of_perm hperm h₁ h₂ h₃

/-- The fields of a constraint's entries, in the order in which messages name them. -/
theorem ofEntries_sorted_eq_ok_iff {e₁ e₂ e₃ : Value × Value} {c : ConstraintFields}
    (h₁ : ConstraintFields.Names e₁ .selector) (h₂ : ConstraintFields.Names e₂ .comparison)
    (h₃ : ConstraintFields.Names e₃ .argument) :
    ConstraintFields.ofEntries .none [e₁, e₂, e₃] = .ok c ↔
      ∃ selector word argument, e₁.2.untagged = .text selector ∧ e₂.2.untagged = .text word ∧
        e₃.2.reread = .ok argument ∧ c = ⟨some selector, some word, some argument⟩ := by
  simp only [ConstraintFields.ofEntries_cons_eq_ok_iff]
  constructor
  · rintro ⟨f, c₁, hf, hset₁, g, c₂, hg, hset₂, k, c₃, hk, hset₃, hc⟩
    obtain rfl := ConstraintFields.Names.unique hf h₁
    obtain rfl := ConstraintFields.Names.unique hg h₂
    obtain rfl := ConstraintFields.Names.unique hk h₃
    obtain ⟨-, s, hs, rfl⟩ := ConstraintFields.set_selector_eq_ok_iff.mp hset₁
    obtain ⟨-, w, hw, rfl⟩ := ConstraintFields.set_comparison_eq_ok_iff.mp hset₂
    obtain ⟨-, a, ha, rfl⟩ := ConstraintFields.set_argument_eq_ok_iff.mp hset₃
    cases hc
    exact ⟨s, w, a, hs, hw, ha, rfl⟩
  · rintro ⟨s, w, a, hs, hw, ha, rfl⟩
    exact ⟨_, _, h₁, ConstraintFields.set_selector_eq_ok_iff.mpr ⟨rfl, s, hs, rfl⟩,
      _, _, h₂, ConstraintFields.set_comparison_eq_ok_iff.mpr ⟨rfl, w, hw, rfl⟩,
      _, _, h₃, ConstraintFields.set_argument_eq_ok_iff.mpr ⟨rfl, a, ha, rfl⟩, rfl⟩

/-- A constraint is accepted if all its fields are there and each of them is in order. -/
theorem constraintOf_eq_ok_iff_fields {entries : List (Value × Value)} {t : Tree} :
    constraintOf entries = .ok t ↔
      ∃ selector word argument comparison literal,
        ConstraintFields.ofEntries .none entries =
          .ok ⟨some selector, some word, some argument⟩ ∧
        selector ≠ "" ∧ Comparison.read word = .ok comparison ∧
        Literal.ofValue argument = .ok literal ∧ t = .constraint selector comparison literal := by
  rw [constraintOf, bind_eq_ok_iff]
  constructor
  · rintro ⟨⟨_, _, _⟩, hfields, h⟩
    obtain ⟨selector, hselector, hrest₁⟩ := bind_eq_ok_iff.mp h
    obtain ⟨word, hword, hrest₂⟩ := bind_eq_ok_iff.mp hrest₁
    obtain ⟨argument, hargument, hrest⟩ := bind_eq_ok_iff.mp hrest₂
    obtain rfl := ConstraintFields.require_eq_ok_iff.mp hselector
    obtain rfl := ConstraintFields.require_eq_ok_iff.mp hword
    obtain rfl := ConstraintFields.require_eq_ok_iff.mp hargument
    clear h hrest₁ hrest₂
    split at hrest
    case isTrue => cases hrest
    case isFalse hempty =>
      cases hcomparison : Comparison.read word with
      | error unknown =>
        rw [hcomparison] at hrest
        cases hrest
      | ok comparison =>
        rw [hcomparison] at hrest
        obtain ⟨literal, hliteral, ht⟩ := bind_eq_ok_iff.mp hrest
        exact ⟨selector, word, argument, comparison, literal, hfields, by simpa using hempty,
          hcomparison, hliteral, (Except.ok.inj ht).symm⟩
  · rintro ⟨selector, word, argument, comparison, literal, hfields, hempty, hcomparison, hliteral,
      rfl⟩
    refine ⟨_, hfields, ?_⟩
    show (if selector.isEmpty then _ else _) = _
    rw [if_neg (by simpa using hempty), hcomparison]
    show (Literal.ofValue argument >>= _) = _
    rw [hliteral]
    rfl

/-- **Constraints** are read from the entries that denote them, in any order. -/
theorem constraintOf_eq_ok_iff {entries : List (Value × Value)} {t : Tree} :
    constraintOf entries = .ok t ↔
      ∃ selector comparison argument, DenotesConstraint entries selector comparison argument ∧
        t = .constraint selector comparison argument := by
  have hnames : ∀ {key v : Value} {f : Field},
      ConstraintFields.Names (key, v) f ↔ key.untagged = .text f.key := Value.text?_eq_some_iff
  rw [constraintOf_eq_ok_iff_fields]
  constructor
  · rintro ⟨selector, word, argument, comparison, literal, hfields, hempty, hcomparison, hliteral,
      rfl⟩
    obtain ⟨⟨key₁, v₁⟩, ⟨key₂, v₂⟩, ⟨key₃, v₃⟩, hperm, h₁, h₂, h₃⟩ :=
      ConstraintFields.perm_of_ofEntries hfields fun f => by cases f <;> rfl
    obtain ⟨_, _, _, hs, hw, ha, heq⟩ :=
      (ofEntries_sorted_eq_ok_iff h₁ h₂ h₃).mp (ConstraintFields.ofEntries_perm hperm hfields)
    cases heq
    exact ⟨selector, comparison, literal, ⟨key₁, key₂, key₃, v₁, v₂, v₃, word, hperm,
      hnames.mp h₁, hnames.mp h₂, hnames.mp h₃, hs, hempty, hw, hcomparison,
      Literal.ofValue_reread_eq_ok_iff.mp ⟨argument, ha, hliteral⟩⟩, rfl⟩
  · rintro ⟨selector, comparison, literal, ⟨key₁, key₂, key₃, v₁, v₂, v₃, word, hperm, h₁, h₂, h₃,
      hs, hempty, hw, hcomparison, hliteral⟩, rfl⟩
    obtain ⟨argument, ha, hliteral⟩ := Literal.ofValue_reread_eq_ok_iff.mpr hliteral
    refine ⟨selector, word, argument, comparison, literal, ?_, hempty, hcomparison, hliteral, rfl⟩
    apply ConstraintFields.ofEntries_perm hperm.symm
    exact (ofEntries_sorted_eq_ok_iff (hnames.mpr h₁) (hnames.mpr h₂) (hnames.mpr h₃)).mpr
      ⟨selector, word, argument, hs, hw, ha, rfl⟩

end Tree

end QueryTree
