import QueryTree.Proofs.Inventory.Listing
import QueryTree.Proofs.Text.Digits

/-!
# Reading the counted listing

A line of the counted listing is a selector, a colon with a space, and a number. A number has no
colon, so the last colon with a space stands before it, whatever the selector is
(`Inventory.readLine?_countedLine`). So the listing tells the entries, and with them the plain
listing (`Inventory.counted_lines_read_back`).
-/

namespace QueryTree

/-! ### The last place of a separator -/

namespace Text

/-- The separator stands between the two parts of the list, and nowhere further behind. -/
structure LastCut (sep l before behind : List Char) : Prop where
  parts : l = before ++ sep ++ behind
  last : ∀ before' behind', l = before' ++ sep ++ behind' → before'.length ≤ before.length

/-- A list cut where a separator stands for the last time. -/
def cutAtLast? (sep : List Char) : List Char → Option (List Char × List Char)
  | [] => none
  | c :: cs =>
    match cutAtLast? sep cs with
    | some (before, behind) => some (c :: before, behind)
    | none => if sep.isPrefixOf (c :: cs) then some ([], (c :: cs).drop sep.length) else none

variable {sep l before behind : List Char}

theorem LastCut.unique {before' behind' : List Char} (h : LastCut sep l before behind)
    (h' : LastCut sep l before' behind') : before = before' ∧ behind = behind' := by
  have hlength : before.length = before'.length :=
    Nat.le_antisymm (h'.last _ _ h.parts) (h.last _ _ h'.parts)
  have hparts := h.parts.symm.trans h'.parts
  rw [List.append_assoc, List.append_assoc] at hparts
  obtain ⟨hbefore, hrest⟩ := List.append_inj hparts hlength
  exact ⟨hbefore, List.append_cancel_left hrest⟩

/-- One more character in front. -/
theorem LastCut.cons (h : LastCut sep l before behind) (c : Char) :
    LastCut sep (c :: l) (c :: before) behind where
  parts := by rw [h.parts, List.cons_append, List.cons_append]
  last := by
    rintro (_ | ⟨d, before'⟩) behind' heq
    · exact Nat.zero_le _
    · exact Nat.succ_le_succ (h.last before' behind' (List.cons.inj heq).2)

/-- A separator that stands at the beginning and nowhere behind it. -/
theorem lastCut_nil {c : Char} {cs : List Char} (hfront : sep <+: c :: cs)
    (hnone : ∀ before behind, cs ≠ before ++ sep ++ behind) :
    LastCut sep (c :: cs) [] ((c :: cs).drop sep.length) where
  parts := by
    obtain ⟨rest, hrest⟩ := hfront
    rw [← hrest, List.drop_left, List.nil_append]
  last := by
    rintro (_ | ⟨d, before'⟩) behind' heq
    · exact Nat.zero_le _
    · exact absurd (List.cons.inj heq).2 (hnone before' behind')

/-- The cut is made at the last place, and none is made only where there is no place. -/
theorem cutAtLast?_spec (hsep : sep ≠ []) (l : List Char) :
    match cutAtLast? sep l with
    | some (before, behind) => LastCut sep l before behind
    | none => ∀ before behind, l ≠ before ++ sep ++ behind := by
  induction l with
  | nil =>
    intro before behind h
    simp [hsep] at h
  | cons c cs ih =>
    rw [cutAtLast?]
    split at ih
    case h_1 => exact ih.cons c
    case h_2 =>
      by_cases hfront : sep.isPrefixOf (c :: cs) = true
      · rw [if_pos hfront]
        exact lastCut_nil (List.isPrefixOf_iff_prefix.mp hfront) ih
      · rw [if_neg hfront]
        rintro (_ | ⟨d, before⟩) behind heq
        · apply hfront
          rw [List.isPrefixOf_iff_prefix, heq]
          exact List.prefix_append _ _
        · exact ih before behind (List.cons.inj heq).2

theorem cutAtLast?_eq_some_iff (hsep : sep ≠ []) :
    cutAtLast? sep l = some (before, behind) ↔ LastCut sep l before behind := by
  have hspec := cutAtLast?_spec hsep l
  constructor
  · intro h
    rw [h] at hspec
    exact hspec
  · intro h
    cases hcut : cutAtLast? sep l with
    | none =>
      rw [hcut] at hspec
      exact absurd h.parts (hspec before behind)
    | some parts =>
      obtain ⟨before', behind'⟩ := parts
      rw [hcut] at hspec
      obtain ⟨rfl, rfl⟩ := h.unique hspec
      rfl

/-- A separator whose first character does not occur behind it. -/
theorem lastCut_of_notMem {c : Char} (h : c ∉ sep ++ behind) :
    LastCut (c :: sep) (before ++ c :: sep ++ behind) before behind where
  parts := rfl
  last := by
    intro before' behind' heq
    rw [List.append_assoc, List.append_assoc, List.append_eq_append_iff] at heq
    rcases heq with ⟨more, rfl, hmore⟩ | ⟨more, rfl, -⟩
    · cases more with
      | nil => simp
      | cons d more =>
        -- the first character of the separator would stand behind it once more
        have htail : sep ++ behind = more ++ (c :: sep ++ behind') := (List.cons.inj hmore).2
        refine absurd ?_ h
        rw [htail]
        simp
    · rw [List.length_append]
      exact Nat.le_add_right _ _

end Text

namespace Inventory

open QueryTree.Text

/-- What stands between the name and the number of an entry. -/
def countMark : List Char := ": ".toList

/-- The entry that a line of the counted listing shows. -/
def readLine? (line : String) : Option (String × Nat) :=
  match cutAtLast? countMark line.toList with
  | some (name, digits) => (value? 10 digits).map fun n => (String.ofList name, n)
  | none => none

theorem lastCut_countedLine (e : String × Nat) :
    LastCut countMark (countedLine e).toList e.1.toList (decimal e.2) := by
  have hcolon : ':' ∉ [' '] ++ decimal e.2 := by
    rw [List.mem_append, not_or]
    refine ⟨by decide, fun hmem => ?_⟩
    exact absurd (isDigit_of_mem_decimal hmem) (by decide)
  have hline : (countedLine e).toList = e.1.toList ++ ':' :: [' '] ++ decimal e.2 := by
    simp [countedLine]
  rw [hline]
  exact lastCut_of_notMem hcolon

/-- **A line shows its entry**, whatever its name is. -/
theorem readLine?_countedLine (e : String × Nat) : readLine? (countedLine e) = some e := by
  rw [readLine?, (cutAtLast?_eq_some_iff (by decide)).mpr (lastCut_countedLine e)]
  dsimp only
  rw [value?_decimal, Option.map_some, String.ofList_toList]

theorem map_readLine?_lines (inventory : Inventory) :
    (inventory.lines true).map readLine? = inventory.byUse.map some := by
  show (inventory.byUse.map countedLine).map readLine? = _
  rw [List.map_map]
  exact List.map_congr_left fun e _ => readLine?_countedLine e

instance (a b : String × Nat) : Decidable (Before a b) :=
  inferInstanceAs (Decidable (b.2 < a.2 ∨ a.2 = b.2 ∧ Text.precedes a.1 b.1 = true))

theorem Before.asymm {a b : String × Nat} (hab : Before a b) : ¬ Before b a := by
  rintro (hlt | ⟨heq, hname⟩)
  · rcases hab with h | ⟨h, -⟩ <;> omega
  · rcases hab with h | ⟨-, hname'⟩
    · omega
    · rw [Text.precedes_iff] at hname hname'
      exact List.lt_asymm hname hname'

/-- The order of the counted listing leaves no choice. -/
theorem eq_of_perm_of_before {i j : Inventory} (h : i.Perm j) (hi : i.Pairwise Before)
    (hj : j.Pairwise Before) : i = j :=
  h.eq_of_pairwise (fun _ _ _ _ hab hba => absurd hba hab.asymm) hi hj

/-! ### The main result -/

/-- **The counted listing is read back**: its lines are all different, and each of them, cut at the
last colon with a space, gives its entry, the most used ones first and those used equally often in
the order of their bytes. The names of these entries, sorted by their bytes, are the lines of the
plain listing. -/
theorem counted_lines_read_back {inventory : Inventory} (h : (inventory.map Prod.fst).Nodup) :
    (inventory.lines true).Nodup ∧
      ∃ entries : Inventory, (inventory.lines true).map readLine? = entries.map some ∧
        entries.Perm inventory ∧ entries.Pairwise Before ∧
        ((entries.map Prod.fst).mergeSort fun a b => !Text.precedes b a) =
          inventory.lines false ∧
        (inventory.lines false).Pairwise fun a b => Text.precedes a b = true := by
  have hperm : inventory.byUse.Perm inventory := List.mergeSort_perm _ _
  have hread := inventory.map_readLine?_lines
  refine ⟨?_, inventory.byUse, hread, hperm, pairwise_byUse h, ?_, pairwise_names h⟩
  · have hentries : (inventory.byUse.map some).Nodup :=
      (hperm.nodup_iff.mpr h.of_map).map fun _ _ => Option.some.inj
    rw [← hread] at hentries
    exact hentries.of_map
  · exact names_eq_of_perm hperm

/-- Selectors that look like lines, an empty one, and one with a line feed. -/
theorem counted_lines_read_back_of_lookalikes :
    let inventory : Inventory := [("a", 3), ("a: 3", 1), ("", 12), ("b: ", 3), ("c\n: 0", 1)]
    (inventory.map Prod.fst).Nodup ∧ (inventory.lines true).Nodup ∧
      ∃ entries : Inventory, (inventory.lines true).map readLine? = entries.map some ∧
        entries.Perm inventory ∧
        entries = [("", 12), ("a", 3), ("b: ", 3), ("a: 3", 1), ("c\n: 0", 1)] := by
  intro inventory
  have hnodup : (inventory.map Prod.fst).Nodup := by decide
  obtain ⟨hlines, entries, hread, hperm, hbefore, -⟩ := counted_lines_read_back hnodup
  refine ⟨hnodup, hlines, entries, hread, hperm, eq_of_perm_of_before ?_ hbefore ?_⟩
  · exact hperm.trans (by decide)
  · decide

end Inventory

end QueryTree
