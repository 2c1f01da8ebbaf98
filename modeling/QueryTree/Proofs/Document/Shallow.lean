import QueryTree.Proofs.Document.ByArgument
import QueryTree.Proofs.Document.Denotation
import QueryTree.Proofs.Tree.Stack
import QueryTree.Proofs.Yaml.Depth

/-!
# Loaded trees are shallow

Every connective takes two collections of its document, the mapping with its key and the list of its
children, and a constraint takes one more (`Tree.height_le_depth`). Since the loader bounds the
depth of a document, it bounds the height of a tree, and with it the stack that reading, writing and
counting take (`Tree.loaded_shallow`).
-/

namespace QueryTree

open QueryTree.Yaml (Value)

/-! ### Depth along a route -/

namespace Yaml.Value

theorem depth_untagged (v : Value) : v.untagged.depth = v.depth := by
  fun_induction untagged v with
  | case1 tag v ih => rw [ih, depth]
  | case2 v h => rfl

/-- A child lies in two collections more than its parent. -/
theorem IsChild.depth_le {v u : Value} {s : ChildStep} (h : v.IsChild s u) :
    u.depth + 2 ≤ v.depth := by
  have hpair : ∀ {c l r}, v.Joins c l r → l.depth + 2 ≤ v.depth ∧ r.depth + 2 ≤ v.depth := by
    rintro c l r ⟨list, hv, hlist⟩
    have hentry := depth_lt_of_mem_entries (List.mem_singleton_self (text c.key, list))
    have hl : l.depth < (sequence [l, r]).depth := depth_lt_of_mem_items (by simp)
    have hr : r.depth < (sequence [l, r]).depth := depth_lt_of_mem_items (by simp)
    rw [← hv, depth_untagged] at hentry
    rw [← hlist, depth_untagged] at hl hr
    omega
  cases h with
  | left hjoins => exact (hpair hjoins).1
  | right hjoins => exact (hpair hjoins).2

/-- **Two collections for every step of a route.** -/
theorem Leads.depth_le {v w : Value} {p : Route} (h : v.Leads p w) :
    2 * p.length + w.depth ≤ v.depth := by
  induction h with
  | here v => simp
  | step hchild _ ih =>
    have := hchild.depth_le
    rw [List.length_cons]
    omega

/-- A mapping is a collection. -/
theorem depth_pos_of_mapping {v : Value} {entries : List (Value × Value)}
    (h : v.untagged = .mapping entries) : 0 < v.depth := by
  rw [← depth_untagged, h]
  exact Nat.succ_pos _

/-- A constraint whose argument has the name of a kind takes two collections. -/
theorem HasArgument.depth_le {v kind inner : Value} {selector : String} {comparison : Comparison}
    (h : v.HasArgument selector comparison (.mapping [(kind, inner)])) : 2 ≤ v.depth := by
  obtain ⟨entries, key₁, key₂, key₃, v₁, v₂, word, hv, hperm, -⟩ := h
  have hmem : (key₃, mapping [(kind, inner)]) ∈ entries := hperm.mem_iff.mpr (by simp)
  have hargument := depth_lt_of_mem_entries hmem
  have hinner := depth_lt_of_mem_entries (List.mem_singleton_self (kind, inner))
  rw [← hv, depth_untagged] at hargument
  omega

end Yaml.Value

/-! ### Heights -/

namespace Tree

/-- A value that is read as a constraint has no children. -/
theorem isLeaf_of_constraint {v : Value} {selector : String} {comparison : Comparison}
    {argument : Literal} (h : ofValue v = .ok (.constraint selector comparison argument)) :
    v.IsLeaf := by
  intro c left right hjoins
  rw [ofValue_of_joins hjoins, joinOutcomes_eq_ok_iff] at h
  obtain ⟨a, b, -, -, heq⟩ := h
  exact join_ne_constraint heq.symm

/-- An accepted value has a route as long as its tree is high, and it ends at a constraint. -/
theorem exists_leads_of_height {v : Value} {t : Tree} (h : ofValue v = .ok t) :
    ∃ p w entries, v.Leads p w ∧ p.length = t.height ∧ w.untagged = .mapping entries := by
  induction denotes_of_ofValue h with
  | constraint hv _ => exact ⟨[], _, _, .here _, rfl, hv⟩
  | @join v left right c a b hjoins ha hb iha ihb =>
    rw [height_join]
    rcases Nat.le_total b.height a.height with hle | hle
    · obtain ⟨p, w, entries, hleads, hlength, hw⟩ := iha (ofValue_of_denotes ha)
      refine ⟨⟨c, .left⟩ :: p, w, entries, .step (.left hjoins) hleads, ?_, hw⟩
      rw [List.length_cons, hlength, Nat.max_eq_left hle]
    · obtain ⟨p, w, entries, hleads, hlength, hw⟩ := ihb (ofValue_of_denotes hb)
      refine ⟨⟨c, .right⟩ :: p, w, entries, .step (.right hjoins) hleads, ?_, hw⟩
      rw [List.length_cons, hlength, Nat.max_eq_right hle]

/-- **A tree of height k takes 2k + 1 collections.** -/
theorem height_le_depth {v : Value} {t : Tree} (h : ofValue v = .ok t) :
    2 * t.height + 1 ≤ v.depth := by
  obtain ⟨p, w, entries, hleads, hlength, hw⟩ := exists_leads_of_height h
  have hroute := hleads.depth_le
  have hconstraint := Value.depth_pos_of_mapping hw
  omega

/-! ### Reading on a stack -/

/-- The outcomes of two calls joined. The second call is made only if the first one accepts. -/
def joinCalls (c : Connective) (first second : Option (Except Fault Tree)) :
    Option (Except Fault Tree) := do
  match ← first with
  | .error f => some (.error (f.below ⟨c, .left⟩))
  | .ok left =>
    match ← second with
    | .error f => some (.error (f.below ⟨c, .right⟩))
    | .ok right => some (.ok (join c left right))

/-- The children of a connective, each read by a call. -/
def readChildren (self : Value → Option (Except Fault Tree)) (c : Connective) (list : Value) :
    Option (Except Fault Tree) :=
  match list.untagged with
  | .sequence [left, right] => joinCalls c (self left) (self right)
  | _ => some (.error (.here (.children c) .notTwoNodes))

/-- One call of the reading of a node. -/
def readBody (self : Value → Option (Except Fault Tree)) (v : Value) : Option (Except Fault Tree) :=
  match v.untagged with
  | .mapping [(key, list)] =>
    match connectiveOf? key with
    | some c => readChildren self c list
    | none => some (constraintOf [(key, list)])
  | .mapping entries =>
    match connectiveAmong? entries with
    | some c => some (.error (.here .whole (.notOnlyKey c)))
    | none => some (constraintOf entries)
  | _ => some (.error (.here .whole .notMapping))

theorem joinCalls_some (c : Connective) (x y : Except Fault Tree) :
    joinCalls c (some x) (some y) = some (joinOutcomes c x y) := by
  cases x <;> cases y <;> rfl

theorem joinCalls_ite {p q : Prop} [Decidable p] [Decidable q] (c : Connective) (a b : Tree) :
    joinCalls c (if p then some (.ok a) else none) (if q then some (.ok b) else none) =
      if p ∧ q then some (.ok (join c a b)) else none := by
  by_cases hp : p <;> by_cases hq : q <;> simp [hp, hq, joinCalls]

section Body

variable {self : Value → Option (Except Fault Tree)} {v : Value}

theorem readBody_of_joins {c : Connective} {left right : Value} (h : v.Joins c left right) :
    readBody self v = joinCalls c (self left) (self right) := by
  obtain ⟨list, hv, hlist⟩ := h
  rw [readBody, hv]
  dsimp only
  rw [connectiveOf?_eq_some_iff.mpr rfl]
  dsimp only
  rw [readChildren, hlist]

/-- A leaf makes no call. -/
theorem readBody_of_isLeaf (h : v.IsLeaf) : readBody self v = some (ofValue v) := by
  rw [← ofValue_untagged, readBody]
  split
  next key list hv =>
    rw [hv, ofValue]
    cases hkey : connectiveOf? key with
    | none => rfl
    | some c =>
      have hpair : ∀ left right, list.untagged ≠ .sequence [left, right] := by
        intro left right hlist
        obtain rfl := connectiveOf?_eq_some_iff.mp hkey
        exact h c left right ⟨list, hv, hlist⟩
      dsimp only
      rw [childrenOf_of_not_pair c hpair, readChildren]
      split
      next left right hlist => exact absurd hlist (hpair left right)
      next => rfl
  next entries hmany hv =>
    rw [hv, ofValue]
    · cases connectiveAmong? entries <;> rfl
    · exact hmany
  next hmapping => rw [ofValue_untagged, ofValue_of_not_mapping hmapping]

end Body

/-- **Reading an accepted value** takes one frame more than its tree is high. -/
theorem onStack_readBody_of_ok {v : Value} {t : Tree} (h : ofValue v = .ok t) (frames : Nat) :
    onStack readBody frames v = if t.height < frames then some (.ok t) else none := by
  induction denotes_of_ofValue h generalizing frames with
  | constraint hv hd =>
    cases frames with
    | zero => rfl
    | succ frames =>
      rw [onStack, readBody_of_isLeaf (isLeaf_of_constraint h), h]
      exact (if_pos (Nat.succ_pos frames)).symm
  | @join v left right c a b hjoins ha hb iha ihb =>
    cases frames with
    | zero => rfl
    | succ frames =>
      rw [onStack, readBody_of_joins hjoins, iha (ofValue_of_denotes ha),
        ihb (ofValue_of_denotes hb), joinCalls_ite, height_join]
      simp only [max_add_one_lt_iff]

/-- Reading any value takes one frame more than its longest route has steps, also if the value is
refused. -/
theorem onStack_readBody {v : Value} {frames : Nat}
    (h : ∀ p w, v.Leads p w → p.length < frames) :
    onStack readBody frames v = some (ofValue v) := by
  induction frames generalizing v with
  | zero => exact absurd (h [] v (.here v)) (Nat.not_lt_zero _)
  | succ frames ih =>
    by_cases hleaf : v.IsLeaf
    · exact readBody_of_isLeaf hleaf
    obtain ⟨c, left, right, hjoins⟩ : ∃ c left right, v.Joins c left right := by
      simpa [Value.IsLeaf] using hleaf
    have hleft : onStack readBody frames left = some (ofValue left) := ih fun p w hp =>
      Nat.lt_of_succ_lt_succ (h _ w (.step (.left hjoins) hp))
    have hright : onStack readBody frames right = some (ofValue right) := ih fun p w hp =>
      Nat.lt_of_succ_lt_succ (h _ w (.step (.right hjoins) hp))
    rw [onStack, readBody_of_joins hjoins, hleft, hright, joinCalls_some, ofValue_of_joins hjoins]

/-! ### The main result -/

theorem parse_eq_ok_iff {s : String} {t : Tree} :
    parse s = .ok t ↔ ∃ v, Value.ofString s = .ok v ∧ ofValue v = .ok t := by
  unfold parse
  cases Value.ofString s with
  | error e => simp
  | ok v => simp [mapError_eq_ok_iff]

/-- A loaded document gives a tree with at most 63 connectives in one another. -/
theorem height_le_of_parse {s : String} {t : Tree} (h : parse s = .ok t) : t.height ≤ 63 := by
  obtain ⟨v, hv, ht⟩ := parse_eq_ok_iff.mp h
  have hlimit : v.depth ≤ 128 := Value.depth_le_of_ofString hv
  have hheight := height_le_depth ht
  omega

/-- Disjunctions in one another, each with the node of an anchor before the next one. -/
def chainText : Nat → List Char
  | 0 => "*c".toList
  | n + 1 => "or: [*c, ".toList ++ chainText n ++ [']']

/-- A document with 63 disjunctions in one another. -/
def deepText : List Char :=
  "or: [&c {selector: a, comparison: eq, argument: 1}, ".toList ++ chainText 62 ++ [']']

theorem exists_parse_deepText :
    ∃ t, parse (String.ofList deepText) = .ok t ∧ t.height = 63 := by
  -- the text is evaluated as the characters it is made of
  have hread : Value.ofString (String.ofList deepText) =
      (Yaml.Document.collect (8 * deepText.length + 16) ⟨#[], [], []⟩
        (Yaml.Machine.ofChars deepText)).load := by
    rw [Value.ofString, Yaml.Document.ofString, String.toList_ofList]
  have hheight : ((Yaml.Document.collect (8 * deepText.length + 16) ⟨#[], [], []⟩
      (Yaml.Machine.ofChars deepText)).load.toOption.bind
        fun v => (ofValue v).toOption.map height) = some 63 := by
    decide +kernel
  rw [← hread] at hheight
  obtain ⟨v, hv, ht⟩ := Option.bind_eq_some_iff.mp hheight
  obtain ⟨t, ht, hheight⟩ := Option.map_eq_some_iff.mp ht
  rw [toOption_eq_some_iff] at hv ht
  exact ⟨t, parse_eq_ok_iff.mpr ⟨v, hv, ht⟩, hheight⟩

/-- **Loaded trees are shallow.** A value whose tree has height k has 2k + 1 collections in one
another, and one more if a constraint at the end of a longest route has an argument under the name
of a kind. Loaded values have at most 128. So a parsed tree has at most 63 connectives in one
another, and 64 frames are enough to read it, to write it and to count its selectors; 65 are enough
to read any loaded value, also one that is refused. There is a text whose tree is 63 high. -/
theorem loaded_shallow :
    (∀ v t, ofValue v = .ok t → 2 * t.height + 1 ≤ v.depth ∧
      ∀ p w selector comparison kind inner, v.Leads p w → p.length = t.height →
        w.HasArgument selector comparison (.mapping [(kind, inner)]) →
        2 * t.height + 2 ≤ v.depth) ∧
    (∀ s v, Value.ofString s = .ok v → v.depth ≤ 128 ∧
      onStack readBody 65 v = some (ofValue v)) ∧
    (∀ s t, parse s = .ok t → t.height ≤ 63 ∧
      (∃ v, Value.ofString s = .ok v ∧ onStack readBody 64 v = some (.ok t)) ∧
      (∀ out guarded, onStack writeBody 64 (t, out, guarded) = some (t.write out guarded)) ∧
      ∀ trees, onStack countBody 64 (t, Inventory.ofTrees trees) =
        some (Inventory.ofTrees (trees ++ [t]))) ∧
    ∃ s t, parse s = .ok t ∧ t.height = 63 := by
  refine ⟨fun v t h => ⟨height_le_depth h, ?_⟩, fun s v h => ⟨Value.depth_le_of_ofString h, ?_⟩,
    fun s t h => ⟨height_le_of_parse h, ?_, ?_, ?_⟩, _, exists_parse_deepText⟩
  · intro p w selector comparison kind inner hleads hlength hargument
    have hroute := hleads.depth_le
    have htyped := hargument.depth_le
    omega
  · refine onStack_readBody fun p w hleads => ?_
    have hlimit : v.depth ≤ 128 := Value.depth_le_of_ofString h
    have hroute := hleads.depth_le
    omega
  · obtain ⟨v, hv, ht⟩ := parse_eq_ok_iff.mp h
    refine ⟨v, hv, ?_⟩
    rw [onStack_readBody_of_ok ht, if_pos (Nat.lt_succ_of_le (height_le_of_parse h))]
  · intro out guarded
    rw [onStack_writeBody, if_pos (Nat.lt_succ_of_le (height_le_of_parse h))]
  · intro trees
    rw [onStack_countBody, if_pos (Nat.lt_succ_of_le (height_le_of_parse h)), Inventory.ofTrees,
      Inventory.ofTrees, Inventory.ofSelectors, Inventory.ofSelectors, List.flatMap_append,
      List.flatMap_singleton, List.foldl_append]

end Tree

end QueryTree
