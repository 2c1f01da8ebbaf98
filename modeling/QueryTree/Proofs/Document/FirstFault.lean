import QueryTree.Proofs.Document.Node

/-!
# Where a document fails

A refused document has one node that is to blame: a leaf that is refused by itself, with every
node that the way to it leaves on its left accepted (`Tree.ofValue_eq_error_iff`). The address names
the way to this node and no other (`Fault.addressText_inj`), and the node alone decides what is said
of it (`Tree.error_at_first_fault`).
-/

namespace QueryTree

open QueryTree.Yaml (Value)

/-- The way from a node of a document down to another one. -/
abbrev Route := List ChildStep

/-- The first route comes before the second one in the order of the document: where they part, it
goes left. -/
def Route.Before (p q : Route) : Prop :=
  ∃ (common : Route) (c : Connective) (rest rest' : Route),
    p = common ++ ⟨c, .left⟩ :: rest ∧ q = common ++ ⟨c, .right⟩ :: rest'

theorem Route.Before.cons {p q : Route} (h : p.Before q) (s : ChildStep) :
    Route.Before (s :: p) (s :: q) := by
  obtain ⟨common, c, rest, rest', rfl, rfl⟩ := h
  exact ⟨s :: common, c, rest, rest', rfl, rfl⟩

/-! ### Nodes below a value -/

namespace Yaml.Value

/-- The child of a value at a step. -/
inductive IsChild : Value → ChildStep → Value → Prop where
  /-- The first of the two joined values. -/
  | left {v l r : Value} {c : Connective} : v.Joins c l r → IsChild v ⟨c, .left⟩ l
  /-- The second of the two joined values. -/
  | right {v l r : Value} {c : Connective} : v.Joins c l r → IsChild v ⟨c, .right⟩ r

theorem IsChild.unique {v u u' : Value} {s : ChildStep} (h : v.IsChild s u)
    (h' : v.IsChild s u') : u = u' := by
  cases h with
  | left h =>
    cases h' with
    | left h' => exact (h.unique h').2.1
  | right h =>
    cases h' with
    | right h' => exact (h.unique h').2.2

theorem not_isChild_of_isLeaf {v u : Value} {s : ChildStep} (h : v.IsLeaf) : ¬ v.IsChild s u := by
  rintro (hjoins | hjoins) <;> exact h _ _ _ hjoins

/-- The route leads from a value to a node below it. -/
inductive Leads : Value → Route → Value → Prop where
  /-- No step. -/
  | here (v : Value) : Leads v [] v
  /-- A step to a child, and on from there. -/
  | step {v u w : Value} {s : ChildStep} {p : Route} :
    v.IsChild s u → Leads u p w → Leads v (s :: p) w

theorem leads_nil_iff {v w : Value} : v.Leads [] w ↔ w = v := by
  constructor
  · intro h
    cases h
    rfl
  · rintro rfl
    exact .here w

theorem leads_cons_iff {v w : Value} {s : ChildStep} {p : Route} :
    v.Leads (s :: p) w ↔ ∃ u, v.IsChild s u ∧ u.Leads p w := by
  constructor
  · intro h
    cases h with
    | step hchild hleads => exact ⟨_, hchild, hleads⟩
  · rintro ⟨u, hchild, hleads⟩
    exact .step hchild hleads

/-- What a route leads to from a joined value is what its rest leads to from the child. -/
theorem leads_cons_of_isChild {v u w : Value} {s : ChildStep} {p : Route} (h : v.IsChild s u) :
    v.Leads (s :: p) w ↔ u.Leads p w := by
  rw [leads_cons_iff]
  exact ⟨fun ⟨_, hchild, hleads⟩ => h.unique hchild ▸ hleads, fun hleads => ⟨u, h, hleads⟩⟩

theorem Leads.unique {v u u' : Value} {p : Route} (h : v.Leads p u) (h' : v.Leads p u') :
    u = u' := by
  induction h with
  | here v => exact (leads_nil_iff.mp h').symm
  | step hchild _ ih => exact ih ((leads_cons_of_isChild hchild).mp h')

/-! ### What a route leaves on its left -/

/-- Wherever the route goes right, the left child is accepted. -/
def LeftAccepted (v : Value) (p : Route) : Prop :=
  ∀ before c after, p = before ++ ⟨c, .right⟩ :: after →
    ∃ sibling tree, v.Leads (before ++ [⟨c, .left⟩]) sibling ∧ Tree.ofValue sibling = .ok tree

theorem leftAccepted_nil (v : Value) : v.LeftAccepted [] := by
  intro before c after h
  simp at h

theorem leftAccepted_cons_of_isChild {v u : Value} {s : ChildStep} (h : v.IsChild s u)
    (p : Route) : v.LeftAccepted (s :: p) ↔
      (s.side = .right → ∃ sibling tree, v.IsChild ⟨s.connective, .left⟩ sibling ∧
        Tree.ofValue sibling = .ok tree) ∧ u.LeftAccepted p := by
  constructor
  · intro hp
    refine ⟨fun hside => ?_, fun before c after heq => ?_⟩
    · obtain ⟨sibling, tree, hleads, htree⟩ := hp [] s.connective p (by rw [← hside]; rfl)
      obtain ⟨u', hchild, hleads⟩ := leads_cons_iff.mp hleads
      obtain rfl := leads_nil_iff.mp hleads
      exact ⟨_, tree, hchild, htree⟩
    · obtain ⟨sibling, tree, hleads, htree⟩ := hp (s :: before) c after (by rw [heq]; rfl)
      exact ⟨sibling, tree, (leads_cons_of_isChild h).mp hleads, htree⟩
  · rintro ⟨hside, hp⟩ before c after heq
    cases before with
    | nil =>
      obtain ⟨rfl, rfl⟩ := List.cons.inj heq
      obtain ⟨sibling, tree, hchild, htree⟩ := hside rfl
      exact ⟨sibling, tree, .step hchild (.here _), htree⟩
    | cons s' before =>
      obtain ⟨rfl, rfl⟩ := List.cons.inj heq
      obtain ⟨sibling, tree, hleads, htree⟩ := hp before c after rfl
      exact ⟨sibling, tree, .step h hleads, htree⟩

end Yaml.Value

/-! ### The node to blame -/

namespace Tree

/-- One step towards the node to blame: the fault is one of a child, and if it is the right one then
the left one is accepted. -/
theorem ofValue_eq_error_cons_iff {v : Value} {s : ChildStep} {p : Route} {part : NodePart}
    {cause : FaultCause} :
    ofValue v = .error ⟨s :: p, part, cause⟩ ↔
      ∃ u, v.IsChild s u ∧ ofValue u = .error ⟨p, part, cause⟩ ∧
        (s.side = .right → ∃ sibling tree, v.IsChild ⟨s.connective, .left⟩ sibling ∧
          ofValue sibling = .ok tree) := by
  constructor
  · intro h
    by_cases hleaf : v.IsLeaf
    · have hnil := isLocal_ofValue hleaf _ h
      cases hnil
    obtain ⟨c, l, r, hjoins⟩ : ∃ c l r, v.Joins c l r := by
      simpa [Value.IsLeaf] using hleaf
    rw [ofValue_of_joins hjoins, joinOutcomes_eq_error_iff] at h
    rcases h with ⟨g, hl, hf⟩ | ⟨t, g, hl, hr, hf⟩
    · unfold Fault.below at hf
      cases hf
      exact ⟨l, .left hjoins, hl, fun hside => by cases hside⟩
    · unfold Fault.below at hf
      cases hf
      exact ⟨r, .right hjoins, hr, fun _ => ⟨l, t, .left hjoins, hl⟩⟩
  · rintro ⟨u, hchild, hu, hside⟩
    cases hchild with
    | left hjoins =>
      rw [ofValue_of_joins hjoins, hu]
      rfl
    | right hjoins =>
      obtain ⟨sibling, tree, hsibling, htree⟩ := hside rfl
      obtain rfl := hsibling.unique (.left hjoins)
      rw [ofValue_of_joins hjoins, htree, hu]
      rfl

/-- The node at the end of the route is to blame: it is a leaf, it is refused, and the nodes that
the route leaves on its left are accepted. -/
structure FailsAt (v : Value) (p : Route) (u : Value) : Prop where
  leads : v.Leads p u
  leftAccepted : v.LeftAccepted p
  isLeaf : u.IsLeaf
  refused : ∃ f, ofValue u = .error f

/-- **Where a document fails**: a fault is that of the one node to blame, and its steps are the way
to that node. -/
theorem ofValue_eq_error_iff {v : Value} {p : Route} {part : NodePart} {cause : FaultCause} :
    ofValue v = .error ⟨p, part, cause⟩ ↔
      ∃ u, FailsAt v p u ∧ ofValue u = .error ⟨[], part, cause⟩ := by
  induction p generalizing v with
  | nil =>
    constructor
    · intro h
      refine ⟨v, ⟨.here v, v.leftAccepted_nil, ?_, _, h⟩, h⟩
      -- a joined value is refused for one of its children
      intro c l r hjoins
      rw [ofValue_of_joins hjoins, joinOutcomes_eq_error_iff] at h
      rcases h with ⟨g, -, hf⟩ | ⟨t, g, -, -, hf⟩ <;> cases hf
    · rintro ⟨u, hfails, hu⟩
      obtain rfl := Value.leads_nil_iff.mp hfails.leads
      exact hu
  | cons s p ih =>
    rw [ofValue_eq_error_cons_iff]
    constructor
    · rintro ⟨u, hchild, hu, hside⟩
      obtain ⟨w, hfails, hw⟩ := ih.mp hu
      exact ⟨w, ⟨.step hchild hfails.leads,
        (Value.leftAccepted_cons_of_isChild hchild p).mpr ⟨hside, hfails.leftAccepted⟩,
        hfails.isLeaf, hfails.refused⟩, hw⟩
    · rintro ⟨w, hfails, hw⟩
      obtain ⟨u, hchild, hleads⟩ := Value.leads_cons_iff.mp hfails.leads
      obtain ⟨hside, hleft⟩ :=
        (Value.leftAccepted_cons_of_isChild hchild p).mp hfails.leftAccepted
      exact ⟨u, hchild, ih.mpr ⟨w, ⟨hleads, hleft, hfails.isLeaf, hfails.refused⟩, hw⟩, hside⟩

/-- The fault of the node to blame has no steps of its own. -/
theorem FailsAt.exists_local {v u : Value} {p : Route} (h : FailsAt v p u) :
    ∃ part cause, ofValue u = .error ⟨[], part, cause⟩ := by
  obtain ⟨⟨steps, part, cause⟩, hu⟩ := h.refused
  obtain rfl : steps = [] := isLocal_ofValue h.isLeaf _ hu
  exact ⟨part, cause, hu⟩

/-- There is one node to blame at most. -/
theorem FailsAt.unique {v u u' : Value} {p p' : Route} (h : FailsAt v p u)
    (h' : FailsAt v p' u') : p = p' := by
  obtain ⟨part, cause, hu⟩ := h.exists_local
  obtain ⟨part', cause', hu'⟩ := h'.exists_local
  have hv := ofValue_eq_error_iff.mpr ⟨u, h, hu⟩
  rw [ofValue_eq_error_iff.mpr ⟨u', h', hu'⟩] at hv
  cases hv
  rfl

/-- All nodes below an accepted value are accepted. -/
theorem accepted_of_leads {v u : Value} {p : Route} {t : Tree} (hv : ofValue v = .ok t)
    (h : v.Leads p u) : ∃ t', ofValue u = .ok t' := by
  induction h generalizing t with
  | here v => exact ⟨t, hv⟩
  | step hchild _ ih =>
    cases hchild with
    | left hjoins =>
      rw [ofValue_of_joins hjoins, joinOutcomes_eq_ok_iff] at hv
      obtain ⟨a, b, ha, -, -⟩ := hv
      exact ih ha
    | right hjoins =>
      rw [ofValue_of_joins hjoins, joinOutcomes_eq_ok_iff] at hv
      obtain ⟨a, b, -, hb, -⟩ := hv
      exact ih hb

/-- The node to blame is the first leaf of the document that is refused. -/
theorem FailsAt.first {v u w : Value} {p q : Route} (h : FailsAt v p u) (hq : v.Leads q w)
    (hleaf : w.IsLeaf) (hrefused : ∃ f, ofValue w = .error f) : p = q ∨ p.Before q := by
  induction p generalizing v q with
  | nil =>
    obtain rfl := Value.leads_nil_iff.mp h.leads
    cases hq with
    | here => exact .inl rfl
    | step hchild _ => exact absurd hchild (Value.not_isChild_of_isLeaf h.isLeaf)
  | cons s p ih =>
    obtain ⟨x, hchild, hleads⟩ := Value.leads_cons_iff.mp h.leads
    obtain ⟨hside, hleft⟩ := (Value.leftAccepted_cons_of_isChild hchild p).mp h.leftAccepted
    cases hq with
    | here => exact absurd hchild (Value.not_isChild_of_isLeaf hleaf)
    | @step _ y _ s' q hchild' hleads' =>
      by_cases hs : s = s'
      · subst hs
        obtain rfl := hchild.unique hchild'
        rcases ih ⟨hleads, hleft, h.isLeaf, h.refused⟩ hleads' with rfl | hbefore
        · exact .inl rfl
        · exact .inr (hbefore.cons s)
      cases hchild with
      | left hjoins =>
        cases hchild' with
        | left hjoins' =>
          obtain ⟨rfl, -, -⟩ := hjoins.unique hjoins'
          exact absurd rfl hs
        | right hjoins' =>
          obtain ⟨rfl, -, -⟩ := hjoins.unique hjoins'
          exact .inr ⟨[], _, p, q, rfl, rfl⟩
      | right hjoins =>
        cases hchild' with
        | right hjoins' =>
          obtain ⟨rfl, -, -⟩ := hjoins.unique hjoins'
          exact absurd rfl hs
        | left hjoins' =>
          -- what is left of the route is accepted, and so is everything below it
          obtain ⟨sibling, tree, hsibling, htree⟩ := hside rfl
          obtain rfl := hsibling.unique (.left hjoins)
          obtain ⟨-, rfl, -⟩ := hjoins.unique hjoins'
          obtain ⟨t, ht⟩ := accepted_of_leads htree hleads'
          obtain ⟨f, hf⟩ := hrefused
          rw [ht] at hf
          cases hf

end Tree

/-! ### Addresses -/

namespace Fault

/-- The texts with which addresses end: nothing, the list of the children, the argument, or the
argument under the name of a kind. -/
inductive IsEnding : String → Prop where
  | whole : IsEnding ""
  | children (c : Connective) : IsEnding ("." ++ c.key)
  | argument : IsEnding ".argument"
  | typedArgument (kind : String) : IsEnding (".argument." ++ kind)

/-- The address with a route and an ending. -/
def addressText (p : Route) (ending : String) : String :=
  "root" ++ String.join (p.map stepText) ++ ending

theorem isEnding_partText (part : NodePart) : IsEnding (partText part) := by
  cases part with
  | whole => exact .whole
  | children c => exact .children c
  | argument => exact .argument
  | typedArgument kind => exact .typedArgument kind

/-- The texts of steps are a prefix code. -/
theorem stepText_append_inj {s t : ChildStep} {cs ds : List Char}
    (h : (stepText s).toList ++ cs = (stepText t).toList ++ ds) : s = t ∧ cs = ds := by
  obtain ⟨c, x⟩ := s
  obtain ⟨d, y⟩ := t
  revert h
  cases c <;> cases x <;> cases d <;> cases y <;> simp [stepText, Connective.key]

/-- No ending begins with the text of a step. -/
theorem ending_ne_stepText_append {e : String} (he : IsEnding e) (s : ChildStep)
    (cs : List Char) : e.toList ≠ (stepText s).toList ++ cs := by
  obtain ⟨c, x⟩ := s
  cases he with
  | children d => cases c <;> cases x <;> cases d <;> simp [stepText, Connective.key]
  | _ => cases c <;> cases x <;> simp [stepText, Connective.key]

/-- **An address tells its route and its ending**, also where the name of a kind looks like a
step. -/
theorem addressText_inj {p q : Route} {e e' : String} (he : IsEnding e) (he' : IsEnding e')
    (h : addressText p e = addressText q e') : p = q ∧ e = e' := by
  have hchars : p.flatMap (fun s => (stepText s).toList) ++ e.toList =
      q.flatMap (fun s => (stepText s).toList) ++ e'.toList := by
    have := congrArg String.toList h
    simpa [addressText, String.toList_join, List.flatMap_map] using this
  clear h
  induction p generalizing q with
  | nil =>
    cases q with
    | nil => exact ⟨rfl, String.toList_inj.mp hchars⟩
    | cons t q =>
      rw [List.flatMap_nil, List.nil_append, List.flatMap_cons, List.append_assoc] at hchars
      exact absurd hchars (ending_ne_stepText_append he t _)
  | cons s p ih =>
    cases q with
    | nil =>
      rw [List.flatMap_nil, List.nil_append, List.flatMap_cons, List.append_assoc] at hchars
      exact absurd hchars.symm (ending_ne_stepText_append he' s _)
    | cons t q =>
      rw [List.flatMap_cons, List.flatMap_cons, List.append_assoc, List.append_assoc] at hchars
      obtain ⟨rfl, hrest⟩ := stepText_append_inj hchars
      obtain ⟨rfl, rfl⟩ := ih hrest
      exact ⟨rfl, rfl⟩

end Fault

/-! ### The main result -/

namespace Tree

/-- **Faults are local.** A refused document has exactly one node to blame, the first refused leaf
in the order of the document. The address of the fault is the route to that node and an ending, and
it cannot be read in another way. The node as a document of its own is refused with the same ending
and the same wording, and so is every document in which the node stands behind accepted ones. -/
theorem error_at_first_fault {v : Value} {f : Fault} (h : ofValue v = .error f) :
    ∃ p u ending, FailsAt v p u ∧ Fault.IsEnding ending ∧
      f.address = Fault.addressText p ending ∧
      (∃ g, ofValue u = .error g ∧ g.address = Fault.addressText [] ending ∧
        g.detail = f.detail) ∧
      (∀ p' u', FailsAt v p' u' → p' = p ∧ u' = u) ∧
      (∀ p' ending', Fault.IsEnding ending' → f.address = Fault.addressText p' ending' →
        p' = p ∧ ending' = ending) ∧
      (∀ q w, v.Leads q w → w.IsLeaf → (∃ g, ofValue w = .error g) → p = q ∨ p.Before q) ∧
      ∀ v' p', v'.Leads p' u → v'.LeftAccepted p' →
        ∃ f', ofValue v' = .error f' ∧ f'.address = Fault.addressText p' ending ∧
          f'.detail = f.detail := by
  obtain ⟨p, part, cause⟩ := f
  obtain ⟨u, hfails, hu⟩ := ofValue_eq_error_iff.mp h
  refine ⟨p, u, Fault.partText part, hfails, Fault.isEnding_partText part, rfl, ⟨_, hu, rfl, rfl⟩,
    ?_, ?_, ?_, ?_⟩
  · intro p' u' hfails'
    obtain rfl := hfails.unique hfails'
    exact ⟨rfl, hfails'.leads.unique hfails.leads⟩
  · intro p' ending' hending haddress
    exact Fault.addressText_inj hending (Fault.isEnding_partText part) haddress.symm
  · intro q w hleads hleaf hrefused
    exact hfails.first hleads hleaf hrefused
  · intro v' p' hleads hleft
    exact ⟨_, ofValue_eq_error_iff.mpr ⟨u, ⟨hleads, hleft, hfails.isLeaf, hfails.refused⟩, hu⟩,
      rfl, rfl⟩

/-- A constraint whose argument has a kind and an integer. -/
def integerNode (kind : String) (n : Int) : Value :=
  .mapping [(.text "selector", .text "age"), (.text "comparison", .text "gt"),
    (.text "argument", .mapping [(.text kind, .int n)])]

/-- A byte that is too large, behind an accepted node and before another faulty one. -/
theorem error_at_first_fault_of_byte :
    let v : Value := .mapping [(.text "and", .sequence [integerNode "int" 5,
      .mapping [(.text "or", .sequence [integerNode "byte" 300, integerNode "digit" 1])]])]
    ∃ f, ofValue v = .error f ∧ f.address = "root.and[1].or[0].argument.byte" ∧
      FailsAt v [⟨.and, .right⟩, ⟨.or, .left⟩] (integerNode "byte" 300) := by
  intro v
  refine ⟨⟨[⟨.and, .right⟩, ⟨.or, .left⟩], .typedArgument "byte", .notInteger⟩, rfl, rfl, ?_⟩
  obtain ⟨p, u, ending, hfails, -, -, -, -, hroute, -⟩ := error_at_first_fault (v := v) rfl
  obtain ⟨rfl, -⟩ := hroute [⟨.and, .right⟩, ⟨.or, .left⟩] _ (.typedArgument "byte") rfl
  have hleads : v.Leads [⟨.and, .right⟩, ⟨.or, .left⟩] (integerNode "byte" 300) :=
    .step (.right ⟨_, rfl, rfl⟩) (.step (.left ⟨_, rfl, rfl⟩) (.here _))
  rwa [hfails.leads.unique hleads] at hfails

end Tree

end QueryTree
