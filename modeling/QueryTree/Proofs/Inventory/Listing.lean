import Mathlib.Algebra.GroupWithZero.Nat
import Mathlib.Data.List.Nodup
import QueryTree.CommandLine.Report
import QueryTree.Proofs.Query.Position
import QueryTree.Proofs.Text.Order

/-!
# What the listings of selectors say

An inventory that is made by counting one selector after the other tells how often each one occurs
(`Inventory.Tallies`). Its entries in any order give the same listings: the names strictly in the
order of their bytes, and the entries strictly in the order of their uses (`Inventory.lines_exact`).
So a listing says nothing of the shape of the trees, of their order or of what the selectors are
compared with (`Tree.Rearranged`).
-/

namespace QueryTree

/-! ### Selectors of trees -/

namespace Tree

/-- The number of constraints of a tree that use a selector. -/
def uses (s : String) : Tree → Nat
  | and left right => left.uses s + right.uses s
  | or left right => left.uses s + right.uses s
  | constraint t _ _ => if t = s then 1 else 0

/-- The number of constraints of a tree. -/
def constraints : Tree → Nat
  | and left right => left.constraints + right.constraints
  | or left right => left.constraints + right.constraints
  | constraint _ _ _ => 1

/-- Some constraint of a tree uses a selector. -/
def HasSelector (t : Tree) (s : String) : Prop :=
  ∃ p c a, t.at? p = some (constraint s c a)

/-- Trees that differ in nothing but the places of their constraints, in their connectives, and in
what the selectors are compared with. -/
inductive Rearranged : Tree → Tree → Prop where
  | refl (t : Tree) : Rearranged t t
  | symm {t u : Tree} : Rearranged t u → Rearranged u t
  | trans {t u v : Tree} : Rearranged t u → Rearranged u v → Rearranged t v
  | within (c : Connective) {l l' r r' : Tree} : Rearranged l l' → Rearranged r r' →
    Rearranged (join c l r) (join c l' r')
  | swapped (c : Connective) (l r : Tree) : Rearranged (join c l r) (join c r l)
  | reassociated (c : Connective) (l m r : Tree) :
    Rearranged (join c (join c l m) r) (join c l (join c m r))
  | exchanged (c d : Connective) (l r : Tree) : Rearranged (join c l r) (join d l r)
  | replaced (s : String) (c d : Comparison) (a b : Literal) :
    Rearranged (constraint s c a) (constraint s d b)

theorem selectors_join (c : Connective) (l r : Tree) :
    (join c l r).selectors = l.selectors ++ r.selectors := by
  cases c <;> rfl

theorem count_selectors (s : String) (t : Tree) : t.selectors.count s = t.uses s := by
  induction t with
  | and l r ihl ihr => rw [selectors, uses, List.count_append, ihl, ihr]
  | or l r ihl ihr => rw [selectors, uses, List.count_append, ihl, ihr]
  | constraint t c a => simp [selectors, uses, List.count_singleton]

theorem length_selectors (t : Tree) : t.selectors.length = t.constraints := by
  induction t with
  | and l r ihl ihr => rw [selectors, constraints, List.length_append, ihl, ihr]
  | or l r ihl ihr => rw [selectors, constraints, List.length_append, ihl, ihr]
  | constraint t c a => rfl

theorem hasSelector_of_child {t u : Tree} {side : Side} (h : t.child? side = some u) {s : String}
    (hu : u.HasSelector s) : t.HasSelector s := by
  obtain ⟨p, c, a, hp⟩ := hu
  exact ⟨side :: p, c, a, by rw [at?_cons h, hp]⟩

theorem mem_selectors_iff (s : String) (t : Tree) : s ∈ t.selectors ↔ t.HasSelector s := by
  have hjoin : ∀ {t l r : Tree}, t.child? .left = some l → t.child? .right = some r →
      (∀ u c a, t ≠ constraint u c a) → (l.HasSelector s ∨ r.HasSelector s ↔ t.HasSelector s) := by
    intro t l r hl hr hne
    constructor
    · rintro (h | h)
      · exact hasSelector_of_child hl h
      · exact hasSelector_of_child hr h
    · rintro ⟨p, c, a, hp⟩
      match p with
      | [] => exact absurd (Option.some.inj hp) (hne s c a)
      | .left :: p => exact .inl ⟨p, c, a, by rwa [at?_cons hl] at hp⟩
      | .right :: p => exact .inr ⟨p, c, a, by rwa [at?_cons hr] at hp⟩
  induction t with
  | and l r ihl ihr =>
    rw [selectors, List.mem_append]
    exact (or_congr ihl ihr).trans (hjoin rfl rfl fun _ _ _ h => by cases h)
  | or l r ihl ihr =>
    rw [selectors, List.mem_append]
    exact (or_congr ihl ihr).trans (hjoin rfl rfl fun _ _ _ h => by cases h)
  | constraint t c a =>
    rw [selectors, List.mem_singleton]
    constructor
    · rintro rfl
      exact ⟨[], c, a, rfl⟩
    · rintro ⟨p, d, b, hp⟩
      cases p with
      | nil =>
        cases hp
        rfl
      | cons side p =>
        rw [at?_constraint_cons] at hp
        cases hp

/-- Trees that are rearranged have the same selectors, each as often. -/
theorem Rearranged.selectors_perm {t u : Tree} (h : Rearranged t u) :
    t.selectors.Perm u.selectors := by
  induction h with
  | refl => exact .refl _
  | symm _ ih => exact ih.symm
  | trans _ _ ih ih' => exact ih.trans ih'
  | within c _ _ ihl ihr =>
    rw [selectors_join, selectors_join]
    exact ihl.append ihr
  | swapped c l r =>
    rw [selectors_join, selectors_join]
    exact List.perm_append_comm
  | reassociated c l m r =>
    simp only [selectors_join, List.append_assoc]
    exact .refl _
  | exchanged c d l r =>
    rw [selectors_join, selectors_join]
  | replaced s c d a b => exact .refl _

end Tree

namespace Inventory

/-! ### Counting -/

/-- The number that an inventory has for a name. -/
def uses (s : String) (inventory : Inventory) : Nat :=
  (inventory.map fun e => if e.1 = s then e.2 else 0).sum

/-- The inventory tells how often each selector occurs in a list. -/
structure Tallies (inventory : Inventory) (selectors : List String) : Prop where
  nodup : (inventory.map Prod.fst).Nodup
  positive : ∀ e ∈ inventory, 0 < e.2
  uses : ∀ s, inventory.uses s = selectors.count s
  total : (inventory.map Prod.snd).sum = selectors.length

theorem tallies_nil : Tallies [] [] where
  nodup := List.nodup_nil
  positive := fun _ h => absurd h List.not_mem_nil
  uses := fun _ => rfl
  total := rfl

theorem map_fst_add (s : String) (inventory : Inventory) :
    (add s inventory).map Prod.fst =
      if s ∈ inventory.map Prod.fst then inventory.map Prod.fst
      else inventory.map Prod.fst ++ [s] := by
  induction inventory with
  | nil => rfl
  | cons e rest ih =>
    obtain ⟨t, n⟩ := e
    by_cases ht : t = s
    · simp [add, ht]
    · rw [add, if_neg ht, List.map_cons, ih, List.map_cons]
      simp only [List.mem_cons, Ne.symm ht, false_or]
      split <;> rfl

theorem uses_add (s t : String) (inventory : Inventory) :
    (add t inventory).uses s = inventory.uses s + if t = s then 1 else 0 := by
  induction inventory with
  | nil => simp [add, uses]
  | cons e rest ih =>
    obtain ⟨u, n⟩ := e
    simp only [uses] at ih
    by_cases hu : u = t
    · subst hu
      simp only [add, uses, if_true, List.map_cons, List.sum_cons]
      split <;> omega
    · simp only [add, uses, if_neg hu, List.map_cons, List.sum_cons, ih]
      omega

theorem sum_add (s : String) (inventory : Inventory) :
    ((add s inventory).map Prod.snd).sum = (inventory.map Prod.snd).sum + 1 := by
  induction inventory with
  | nil => rfl
  | cons e rest ih =>
    obtain ⟨t, n⟩ := e
    by_cases ht : t = s
    · simp only [add, ht, if_true, List.map_cons, List.sum_cons]
      omega
    · simp only [add, ht, if_false, List.map_cons, List.sum_cons, ih]
      omega

theorem positive_add (s : String) {inventory : Inventory} (h : ∀ e ∈ inventory, 0 < e.2) :
    ∀ e ∈ add s inventory, 0 < e.2 := by
  induction inventory with
  | nil => simp [add]
  | cons e rest ih =>
    obtain ⟨t, n⟩ := e
    rw [List.forall_mem_cons] at h
    rw [add]
    split
    · exact List.forall_mem_cons.mpr ⟨Nat.succ_pos n, h.2⟩
    · exact List.forall_mem_cons.mpr ⟨h.1, ih h.2⟩

/-- One more use is counted. -/
theorem Tallies.add {inventory : Inventory} {selectors : List String}
    (h : Tallies inventory selectors) (s : String) :
    Tallies (inventory.add s) (selectors ++ [s]) where
  nodup := by
    rw [map_fst_add]
    split
    · exact h.nodup
    case isFalse hs =>
      exact h.nodup.append (List.nodup_singleton s) (List.disjoint_singleton.mpr hs)
  positive := positive_add s h.positive
  uses := fun t => by
    rw [uses_add, h.uses, List.count_append, List.count_singleton]
    simp only [beq_iff_eq]
  total := by rw [sum_add, h.total, List.length_append, List.length_singleton]

/-- Counting one selector after the other tells how often each one occurs. -/
theorem tallies_foldl (selectors : List String) {inventory : Inventory} {before : List String}
    (h : Tallies inventory before) :
    Tallies (selectors.foldl (fun inventory s => inventory.add s) inventory)
      (before ++ selectors) := by
  induction selectors generalizing inventory before with
  | nil => rwa [List.append_nil]
  | cons s selectors ih =>
    rw [List.foldl_cons, ← List.singleton_append, ← List.append_assoc]
    exact ih (h.add s)

theorem tallies_ofSelectors (selectors : List String) :
    Tallies (ofSelectors selectors) selectors :=
  tallies_foldl selectors tallies_nil

theorem uses_eq_zero {s : String} {inventory : Inventory} (h : s ∉ inventory.map Prod.fst) :
    inventory.uses s = 0 := by
  induction inventory with
  | nil => rfl
  | cons e rest ih =>
    rw [List.map_cons, List.mem_cons, not_or] at h
    have hrest := ih h.2
    simp only [uses] at hrest
    simp only [uses, List.map_cons, List.sum_cons, if_neg (Ne.symm h.1), hrest]

/-- The number for a name is that of its only entry, if it has one. -/
theorem mem_iff_of_nodup {inventory : Inventory} (hnodup : (inventory.map Prod.fst).Nodup)
    (hpositive : ∀ e ∈ inventory, 0 < e.2) (s : String) (n : Nat) :
    (s, n) ∈ inventory ↔ n = inventory.uses s ∧ 0 < n := by
  induction inventory with
  | nil =>
    simp only [List.not_mem_nil, uses, List.map_nil, List.sum_nil, false_iff]
    omega
  | cons e rest ih =>
    obtain ⟨t, k⟩ := e
    rw [List.map_cons, List.nodup_cons] at hnodup
    rw [List.forall_mem_cons] at hpositive
    have hrest := ih hnodup.2 hpositive.2
    simp only [uses] at hrest
    simp only [uses, List.map_cons, List.sum_cons]
    by_cases ht : t = s
    · subst ht
      have hnone : (t, n) ∉ rest := fun hn => hnodup.1 (List.mem_map.mpr ⟨_, hn, rfl⟩)
      have hzero := uses_eq_zero hnodup.1
      simp only [uses] at hzero
      have hk := hpositive.1
      simp only [List.mem_cons, Prod.mk.injEq, true_and, hnone, or_false, if_true, hzero]
      omega
    · simp only [List.mem_cons, Prod.mk.injEq, Ne.symm ht, false_and, false_or, if_neg ht,
        hrest, Nat.zero_add]

/-- What the entries of an inventory say. -/
theorem Tallies.mem_iff {inventory : Inventory} {selectors : List String}
    (h : Tallies inventory selectors) (s : String) (n : Nat) :
    (s, n) ∈ inventory ↔ n = selectors.count s ∧ 0 < n := by
  rw [mem_iff_of_nodup h.nodup h.positive, h.uses]

theorem Tallies.mem_map_fst_iff {inventory : Inventory} {selectors : List String}
    (h : Tallies inventory selectors) (s : String) :
    s ∈ inventory.map Prod.fst ↔ s ∈ selectors := by
  rw [List.mem_map, ← List.count_pos_iff]
  constructor
  · rintro ⟨⟨t, n⟩, ht, rfl⟩
    obtain ⟨rfl, hpos⟩ := (h.mem_iff t n).mp ht
    exact hpos
  · intro hpos
    exact ⟨(s, _), (h.mem_iff s _).mpr ⟨rfl, hpos⟩, rfl⟩

/-- Selectors in another order give the same entries. -/
theorem Tallies.perm {i j : Inventory} {selectors selectors' : List String}
    (hi : Tallies i selectors) (hj : Tallies j selectors') (h : selectors.Perm selectors') :
    i.Perm j := by
  rw [List.perm_ext_iff_of_nodup hi.nodup.of_map hj.nodup.of_map]
  rintro ⟨s, n⟩
  rw [hi.mem_iff, hj.mem_iff, h.count_eq]

/-! ### Sorting -/

/-- The strict order of the counted listing: more uses first, then the names by their bytes. -/
def Before (a b : String × Nat) : Prop :=
  b.2 < a.2 ∨ a.2 = b.2 ∧ Text.precedes a.1 b.1 = true

theorem usedMore_iff (a b : String × Nat) :
    usedMore a b = true ↔ b.2 < a.2 ∨ a.2 = b.2 ∧ (!Text.precedes b.1 a.1) = true := by
  rw [usedMore, Bool.or_eq_true, decide_eq_true_iff, Bool.and_eq_true, beq_iff_eq]

theorem usedMore_trans (a b c : String × Nat) (hab : usedMore a b = true)
    (hbc : usedMore b c = true) : usedMore a c = true := by
  rw [usedMore_iff] at hab hbc ⊢
  rcases hab with hab | ⟨hab, habn⟩
  · exact .inl (by omega)
  · rcases hbc with hbc | ⟨hbc, hbcn⟩
    · exact .inl (by omega)
    · exact .inr ⟨hab.trans hbc, Text.not_precedes_trans _ _ _ habn hbcn⟩

theorem usedMore_total (a b : String × Nat) : (usedMore a b || usedMore b a) = true := by
  rw [Bool.or_eq_true, usedMore_iff, usedMore_iff]
  rcases Nat.lt_trichotomy a.2 b.2 with h | h | h
  · exact .inr (.inl h)
  · have hnames := Text.not_precedes_total a.1 b.1
    rw [Bool.or_eq_true] at hnames
    exact hnames.imp (fun hn => .inr ⟨h, hn⟩) (fun hn => .inr ⟨h.symm, hn⟩)
  · exact .inl (.inl h)

theorem usedMore_antisymm (a b : String × Nat) (hab : usedMore a b = true)
    (hba : usedMore b a = true) : a = b := by
  rw [usedMore_iff] at hab hba
  rcases hab with hab | ⟨hab, habn⟩
  · omega
  · rcases hba with hba | ⟨-, hban⟩
    · omega
    · exact Prod.ext (Text.not_precedes_antisymm _ _ habn hban) hab

theorem before_of_ne {a b : String × Nat} (h : usedMore a b = true) (hne : a.1 ≠ b.1) :
    Before a b :=
  ((usedMore_iff a b).mp h).imp_right fun ⟨hn, hname⟩ => ⟨hn, Text.precedes_of_ne hname hne⟩

theorem names_eq_of_perm {i j : Inventory} (h : i.Perm j) : i.names = j.names :=
  mergeSort_eq_of_perm Text.not_precedes_trans Text.not_precedes_total
    Text.not_precedes_antisymm (h.map Prod.fst)

theorem byUse_eq_of_perm {i j : Inventory} (h : i.Perm j) : i.byUse = j.byUse :=
  mergeSort_eq_of_perm usedMore_trans usedMore_total usedMore_antisymm h

/-- The listings do not depend on the order of the entries. -/
theorem lines_eq_of_perm {i j : Inventory} (h : i.Perm j) (counted : Bool) :
    i.lines counted = j.lines counted := by
  rw [lines, lines, names_eq_of_perm h, byUse_eq_of_perm h]

/-- Different names are sorted strictly. -/
theorem pairwise_names {inventory : Inventory} (h : (inventory.map Prod.fst).Nodup) :
    inventory.names.Pairwise fun a b => Text.precedes a b = true := by
  have hsorted : inventory.names.Pairwise fun a b => (!Text.precedes b a) = true :=
    List.pairwise_mergeSort Text.not_precedes_trans Text.not_precedes_total _
  have hdistinct : inventory.names.Nodup := ((List.mergeSort_perm _ _).nodup_iff).mpr h
  exact hsorted.imp₂ (fun _ _ => Text.precedes_of_ne) hdistinct

/-- Entries with different names are sorted strictly. -/
theorem pairwise_byUse {inventory : Inventory} (h : (inventory.map Prod.fst).Nodup) :
    inventory.byUse.Pairwise Before := by
  have hsorted : inventory.byUse.Pairwise fun a b => usedMore a b = true :=
    List.pairwise_mergeSort usedMore_trans usedMore_total _
  have hdistinct : (inventory.byUse.map Prod.fst).Nodup :=
    (((List.mergeSort_perm _ _).map Prod.fst).nodup_iff).mpr h
  exact hsorted.imp₂ (fun _ _ => before_of_ne) (List.pairwise_map.mp hdistinct)

/-! ### Listings of trees -/

/-- The same trees in another order, each of them rearranged. -/
def Rearranges (trees trees' : List Tree) : Prop :=
  ∃ moved, trees.Perm moved ∧ List.Forall₂ Tree.Rearranged moved trees'

theorem Rearranges.selectors_perm {trees trees' : List Tree} (h : Rearranges trees trees') :
    (trees.flatMap Tree.selectors).Perm (trees'.flatMap Tree.selectors) := by
  obtain ⟨moved, hperm, hmoved⟩ := h
  refine (hperm.flatMap_right _).trans ?_
  clear hperm
  induction hmoved with
  | nil => exact .refl _
  | cons h _ ih =>
    rw [List.flatMap_cons, List.flatMap_cons]
    exact h.selectors_perm.append ih

theorem Rearranges.ofTrees_perm {trees trees' : List Tree} (h : Rearranges trees trees') :
    (ofTrees trees).Perm (ofTrees trees') :=
  (tallies_ofSelectors _).perm (tallies_ofSelectors _) h.selectors_perm

theorem count_flatMap_selectors (s : String) (trees : List Tree) :
    (trees.flatMap Tree.selectors).count s = (trees.map (Tree.uses s)).sum := by
  rw [List.count_flatMap]
  congr 1
  exact List.map_congr_left fun t _ => t.count_selectors s

theorem length_flatMap_selectors (trees : List Tree) :
    (trees.flatMap Tree.selectors).length = (trees.map Tree.constraints).sum := by
  rw [List.length_flatMap]
  congr 1
  exact List.map_congr_left fun t _ => t.length_selectors

theorem mem_names_iff (inventory : Inventory) (s : String) :
    s ∈ inventory.names ↔ s ∈ inventory.map Prod.fst :=
  (List.mergeSort_perm _ _).mem_iff

/-- **The listings are exact**: whatever the order of the entries, the plain listing has the
selectors of the trees, strictly in the order of their bytes. The counted listing has the same
selectors, each with the number of constraints that use it, the most used ones first and those used
equally often in the order of their bytes; the numbers add up to that of all constraints. Trees in
another order, or rearranged, have the same listings, and their reports are the same. -/
theorem lines_exact {trees : List Tree} {inventory : Inventory}
    (h : inventory.Perm (ofTrees trees)) :
    (∀ s, s ∈ inventory.lines false ↔ ∃ t ∈ trees, t.HasSelector s) ∧
    (inventory.lines false).Pairwise (fun a b => Text.precedes a b = true) ∧
    (∃ entries : Inventory, inventory.lines true = entries.map countedLine ∧
      (∀ s n, (s, n) ∈ entries ↔ n = (trees.map (Tree.uses s)).sum ∧ 0 < n) ∧
      entries.Pairwise Before ∧ (entries.map Prod.fst).Perm (inventory.lines false) ∧
      (entries.map Prod.snd).sum = (trees.map Tree.constraints).sum) ∧
    (∀ (trees' : List Tree) (inventory' : Inventory) (counted : Bool), Rearranges trees trees' →
      inventory'.Perm (ofTrees trees') → inventory'.lines counted = inventory.lines counted) ∧
    ∀ files files' counted, Rearranges (files.map Prod.snd) (files'.map Prod.snd) →
      CommandLine.reportSelectors counted files = CommandLine.reportSelectors counted files' := by
  have htallies := tallies_ofSelectors (trees.flatMap Tree.selectors)
  have hnodup : (inventory.map Prod.fst).Nodup := (h.map Prod.fst).nodup_iff.mpr htallies.nodup
  have hbyUse : inventory.byUse.Perm inventory := List.mergeSort_perm _ _
  refine ⟨?_, pairwise_names hnodup, ⟨inventory.byUse, rfl, ?_, pairwise_byUse hnodup, ?_, ?_⟩,
    ?_, ?_⟩
  · intro s
    show s ∈ inventory.names ↔ _
    rw [mem_names_iff, (h.map Prod.fst).mem_iff, ofTrees, htallies.mem_map_fst_iff,
      List.mem_flatMap]
    exact exists_congr fun t => and_congr_right fun _ => t.mem_selectors_iff s
  · intro s n
    rw [hbyUse.mem_iff, h.mem_iff, ofTrees, htallies.mem_iff, count_flatMap_selectors]
  · exact (hbyUse.map Prod.fst).trans (List.mergeSort_perm _ _).symm
  · rw [((hbyUse.trans h).map Prod.snd).sum_nat, ofTrees, htallies.total,
      length_flatMap_selectors]
  · intro trees' inventory' counted hmoved h'
    exact lines_eq_of_perm (h'.trans (hmoved.ofTrees_perm.symm.trans h.symm)) counted
  · intro files files' counted hmoved
    have hperm := hmoved.ofTrees_perm
    simp only [CommandLine.reportSelectors]
    rw [hperm.isEmpty_eq, lines_eq_of_perm hperm]

/-- Two files, the entries of whose inventory come in another order than they were counted in. -/
theorem lines_exact_of_swapped :
    let status := Tree.constraint "status" .equals (.int 1)
    let trees := [status.and ((Tree.constraint "owner" .lessThan (.int 2)).or status), status]
    let inventory : Inventory := [("owner", 1), ("status", 3)]
    inventory.Perm (ofTrees trees) ∧ inventory ≠ ofTrees trees ∧
      (∀ s, s ∈ inventory.lines false ↔ ∃ t ∈ trees, t.HasSelector s) ∧
      (∀ trees' inventory' counted, Rearranges trees trees' →
        List.Perm inventory' (ofTrees trees') →
        lines inventory' counted = inventory.lines counted) := by
  intro status trees inventory
  have hperm : inventory.Perm (ofTrees trees) := List.Perm.swap _ _ _
  obtain ⟨hnames, -, -, hmoved, -⟩ := lines_exact hperm
  exact ⟨hperm, by decide, hnames, hmoved⟩

end Inventory

end QueryTree
