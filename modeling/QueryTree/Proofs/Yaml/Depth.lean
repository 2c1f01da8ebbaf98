import QueryTree.Proofs.Outcome
import QueryTree.Yaml.Loading

/-!
# How deep loaded values are

Loading a document opens no more than `depthLimit` collections in one another, and what an alias
stands for counts at the place of the alias. So the loaded value, in which aliases are replaced, is
no deeper than that (`Value.depth_le_of_ofString`). Each part of the loader is told how many more
collections it may open and gives values of this depth at most (`Document.ensures_depth`).
-/

namespace QueryTree.Yaml

/-! ### Depths -/

namespace Value

theorem depthOfItems_le_iff {items : List Value} {n : Nat} :
    depthOfItems items ≤ n ↔ ∀ v ∈ items, v.depth ≤ n := by
  induction items with
  | nil => simp [depthOfItems]
  | cons v rest ih => rw [depthOfItems, Nat.max_le, ih, List.forall_mem_cons]

theorem depthOfEntries_le_iff {entries : List (Value × Value)} {n : Nat} :
    depthOfEntries entries ≤ n ↔ ∀ e ∈ entries, e.1.depth ≤ n ∧ e.2.depth ≤ n := by
  induction entries with
  | nil => simp [depthOfEntries]
  | cons e rest ih =>
    obtain ⟨key, v⟩ := e
    rw [depthOfEntries, Nat.max_le, Nat.max_le, ih, List.forall_mem_cons]

/-- An item lies in one collection more than in its own. -/
theorem depth_lt_of_mem_items {items : List Value} {v : Value} (h : v ∈ items) :
    v.depth < (sequence items).depth :=
  Nat.lt_succ_of_le (depthOfItems_le_iff.mp (Nat.le_refl _) v h)

/-- So does the value of an entry. -/
theorem depth_lt_of_mem_entries {entries : List (Value × Value)} {key v : Value}
    (h : (key, v) ∈ entries) : v.depth < (mapping entries).depth :=
  Nat.lt_succ_of_le (depthOfEntries_le_iff.mp (Nat.le_refl _) _ h).2

end Value

/-! ### Scalars -/

theorem depth_of_plainValue {s : String} {v : Value} (h : plainValue s = .ok v) : v.depth = 0 := by
  unfold plainValue at h
  dsimp only at h
  repeat' split at h
  all_goals cases h
  all_goals rfl

namespace Document

theorem depth_wrap (tag : Option Tag) (v : Value) : (wrap tag v).depth = v.depth := by
  unfold wrap
  split <;> rfl

theorem depth_of_naturalValue {text : String} {plain : Bool} {v : Value}
    (h : naturalValue text plain = .ok v) : v.depth = 0 := by
  unfold naturalValue at h
  split at h
  · split at h
    next hplain =>
      cases h
      exact depth_of_plainValue hplain
    · cases h
  · cases h
    rfl

theorem depth_of_forcedValue? {tag : Tag} {text : String} {v : Value}
    (h : forcedValue? tag text = some (.ok v)) : v.depth = 0 := by
  unfold forcedValue? at h
  dsimp only at h
  repeat' split at h
  all_goals cases h
  all_goals rfl

/-- A scalar opens no collection. -/
theorem depth_of_scalarValue {tag : Option Tag} {text : String} {plain : Bool} {v : Value}
    (h : scalarValue tag text plain = .ok v) : v.depth = 0 := by
  unfold scalarValue at h
  split at h
  · exact depth_of_naturalValue h
  next tag =>
    split at h
    · obtain ⟨w, hw, rfl⟩ := map_eq_ok_iff.mp h
      rw [depth_wrap, depth_of_naturalValue hw]
    · cases hforced : forcedValue? tag text with
      | none =>
        rw [hforced] at h
        cases h
        rfl
      | some outcome =>
        rw [hforced] at h
        exact depth_of_forcedValue? (hforced.trans (congrArg some h))

end Document

/-! ### Parts of the loader -/

section Ensures

variable {α β : Type}

/-- Whatever a part of the loader gives, if it gives anything, has the property. -/
def Ensures (part : Load α) (P : α → Prop) : Prop :=
  ∀ before a after, part.run before = .ok (a, after) → P a

theorem Ensures.trivial (part : Load α) : Ensures part fun _ => True := fun _ _ _ _ => True.intro

theorem ensures_pure {P : α → Prop} {a : α} (h : P a) : Ensures (pure a : Load α) P := by
  intro before b after hrun
  cases hrun
  exact h

theorem ensures_throw {P : α → Prop} (e : Error) : Ensures (throw e : Load α) P := by
  intro before a after hrun
  cases hrun

theorem Ensures.bind {part : Load α} {next : α → Load β} {P : α → Prop} {Q : β → Prop}
    (h : Ensures part P) (hnext : ∀ a, P a → Ensures (next a) Q) : Ensures (part >>= next) Q := by
  intro before b after hrun
  rw [StateT.run_bind] at hrun
  obtain ⟨⟨a, middle⟩, ha, hb⟩ := bind_eq_ok_iff.mp hrun
  exact hnext a (h _ _ _ ha) _ _ _ hb

/-- A part whose own value does not count. -/
theorem Ensures.after {part : Load α} {next : α → Load β} {Q : β → Prop}
    (hnext : ∀ a, Ensures (next a) Q) : Ensures (part >>= next) Q :=
  (Ensures.trivial part).bind fun a _ => hnext a

end Ensures

namespace Document

/-- **The parts of the loader keep to their depth.** The induction is on the limit, which goes down
with every step; an alias passes on the depth of its place. -/
theorem ensures_depth (d : Document) (limit : Nat) :
    (∀ place depth, Ensures (d.value limit place depth) fun v => v.depth ≤ depth) ∧
    (∀ place depth index, Ensures (d.items limit place depth index) fun items =>
      ∀ v ∈ items, v.depth ≤ depth) ∧
    ∀ place m depth seen, (∀ e ∈ seen, e.1.depth ≤ depth ∧ e.2.depth ≤ depth) →
      Ensures (d.entries limit place m depth seen) fun entries =>
        ∀ e ∈ entries, e.1.depth ≤ depth ∧ e.2.depth ≤ depth := by
  induction limit with
  | zero =>
    exact ⟨fun _ _ => ensures_throw _, fun _ _ _ => ensures_throw _,
      fun _ _ _ _ _ => ensures_throw _⟩
  | succ limit ih =>
    obtain ⟨hvalue, hitems, hentries⟩ := ih
    refine ⟨fun place depth => ?value, fun place depth index => ?items,
      fun place m depth seen hseen => ?entries⟩
    case value =>
      rw [value]
      refine .after fun ⟨e, m⟩ => .after fun _ => ?_
      cases e with
      | «alias» anchor =>
        refine .after fun _ => ?_
        cases d.anchors.lookup anchor with
        | none => exact ensures_throw _
        | some target =>
          refine .after fun _ => .after fun _ => (hvalue _ _).bind fun v hv => .after fun _ => ?_
          exact ensures_pure hv
      | scalar tag text plain =>
        dsimp only
        cases hscalar : scalarValue tag text plain with
        | error what => exact ensures_throw _
        | ok v => exact ensures_pure (by rw [depth_of_scalarValue hscalar]; exact Nat.zero_le _)
      | sequenceStart tag =>
        cases depth with
        | zero => exact ensures_throw _
        | succ depth =>
          refine (hitems _ _ _).bind fun items h => ensures_pure ?_
          rw [depth_wrap]
          exact Nat.succ_le_succ (Value.depthOfItems_le_iff.mpr h)
      | mappingStart tag =>
        cases depth with
        | zero => exact ensures_throw _
        | succ depth =>
          refine (hentries _ _ _ _ fun _ h => absurd h List.not_mem_nil).bind fun entries h =>
            ensures_pure ?_
          rw [depth_wrap]
          exact Nat.succ_le_succ (Value.depthOfEntries_le_iff.mpr h)
      | sequenceEnd => exact ensures_throw _
      | mappingEnd => exact ensures_throw _
    case items =>
      rw [items]
      refine .after fun ⟨e, m⟩ => ?_
      dsimp only
      split
      · exact .after fun _ => ensures_pure fun _ h => absurd h List.not_mem_nil
      · refine (hvalue _ _).bind fun v hv => (hitems _ _ _).bind fun rest hrest => ?_
        exact ensures_pure (List.forall_mem_cons.mpr ⟨hv, hrest⟩)
    case entries =>
      rw [entries]
      refine .after fun ⟨e, m'⟩ => ?_
      dsimp only
      split
      · exact .after fun _ => ensures_pure hseen
      · refine (hvalue _ _).bind fun key hkey => ?_
        cases Value.equalKey? seen key with
        | some first => exact ensures_throw _
        | none =>
          refine (hvalue _ _).bind fun v hv => hentries _ _ _ _ ?_
          exact List.forall_mem_append.mpr ⟨hseen, List.forall_mem_singleton.mpr ⟨hkey, hv⟩⟩

end Document

/-- **Loaded values are no deeper than the limit.** -/
theorem Value.depth_le_of_ofString {s : String} {v : Value} (h : Value.ofString s = .ok v) :
    v.depth ≤ depthLimit := by
  unfold Value.ofString Document.load at h
  obtain ⟨⟨w, after⟩, hw, hrest⟩ := bind_eq_ok_iff.mp h
  have hdepth := ((Document.ofString s).ensures_depth _).1 _ _ _ _ _ hw
  dsimp only at hrest
  split at hrest
  · cases hrest
  · split at hrest
    · cases hrest
      exact hdepth
    · cases hrest

end QueryTree.Yaml
