import Mathlib.Data.List.Forall2
import QueryTree.Comparison
import QueryTree.Proofs.Text.Space

/-!
# Reading comparisons

A word names a comparison if it is its sign, or its short name in letters of either case
(`Comparison.Names`). No word names two of them, and `read_exact` says that a text is read as the
comparison that it names once the white space around it is off, and refused with what is left if
there is none.
-/

namespace QueryTree

/-! ### The case of letters -/

namespace Text

/-- The characters are equal, or they are the two cases of one of the letters from A to Z. -/
inductive SameLetter : Char → Char → Prop where
  | refl (c : Char) : SameLetter c c
  | lowered {c d : Char} : 'A' ≤ c → c ≤ 'Z' → d.toNat = c.toNat + 32 → SameLetter c d
  | raised {c d : Char} : 'A' ≤ d → d ≤ 'Z' → c.toNat = d.toNat + 32 → SameLetter c d

/-- The texts are equal apart from the case of letters from A to Z. -/
def SameUpToCase (s t : String) : Prop := List.Forall₂ SameLetter s.toList t.toList

/-- The letters from A to Z are 65 to 90, and their lower case is 32 further on. -/
theorem toNat_toLower (c : Char) :
    c.toLower.toNat = if 65 ≤ c.toNat ∧ c.toNat ≤ 90 then c.toNat + 32 else c.toNat := by
  have hval : c.val.toNat = c.toNat := rfl
  unfold Char.toLower
  split
  next h =>
    have hletter : 65 ≤ c.toNat ∧ c.toNat ≤ 90 := h
    rw [if_pos hletter]
    show (c.val + 32).toNat = _
    rw [UInt32.toNat_add, hval]
    exact Nat.mod_eq_of_lt (by simp only [UInt32.reduceToNat]; omega)
  next h => exact (if_neg h).symm

theorem toLower_eq_iff {c d : Char} : c.toLower = d.toLower ↔ SameLetter c d := by
  rw [← Char.toNat_inj, toNat_toLower, toNat_toLower]
  constructor
  · intro h
    split at h <;> split at h
    next hc hd =>
      obtain rfl : c = d := Char.toNat_inj.mp (by omega)
      exact .refl c
    next hc hd => exact .lowered hc.1 hc.2 h.symm
    next hc hd => exact .raised hd.1 hd.2 h
    next hc hd =>
      obtain rfl : c = d := Char.toNat_inj.mp h
      exact .refl c
  · intro h
    cases h with
    | refl => rfl
    | lowered hA hZ heq =>
      have hletter : 65 ≤ c.toNat ∧ c.toNat ≤ 90 := ⟨hA, hZ⟩
      rw [if_pos hletter, if_neg (by omega), heq]
    | raised hA hZ heq =>
      have hletter : 65 ≤ d.toNat ∧ d.toNat ≤ 90 := ⟨hA, hZ⟩
      rw [if_pos hletter, if_neg (by omega), heq]

theorem sameUpToCase_iff {s t : String} :
    SameUpToCase s t ↔ s.toList.map Char.toLower = t.toList.map Char.toLower := by
  rw [← List.forall₂_eq_eq_eq, List.forall₂_map_left_iff, List.forall₂_map_right_iff]
  simp only [toLower_eq_iff]
  rfl

end Text

namespace Comparison

open Text (SameUpToCase sameUpToCase_iff IsBlank Trimmed)

/-! ### The words of a comparison -/

/-- The word is the sign of the comparison, or its short name in letters of either case. -/
inductive Names (word : String) (c : Comparison) : Prop where
  | sign : word = c.sign → Names word c
  | shortName : SameUpToCase word c.shortName → Names word c

theorem mem_all (c : Comparison) : c ∈ all := by cases c <;> decide

/-- The order of a search makes no difference where one comparison at most is looked for. -/
theorem find?_all_eq_some_iff {p : Comparison → Bool}
    (h : ∀ c d, p c = true → p d = true → c = d) {c : Comparison} :
    all.find? p = some c ↔ p c = true := by
  constructor
  · exact List.find?_some
  · intro hc
    cases hfind : all.find? p with
    | none => exact absurd hc (List.find?_eq_none.mp hfind c (mem_all c))
    | some d => rw [h d c (List.find?_some hfind) hc]

theorem sign_inj {c d : Comparison} (h : c.sign = d.sign) : c = d := by
  cases c <;> cases d <;> first | rfl | exact absurd h (by decide)

theorem ofSign?_eq_some_iff {word : String} {c : Comparison} :
    ofSign? word = some c ↔ word = c.sign := by
  have hiff : ∀ d : Comparison, (d.sign == word) = true ↔ word = d.sign := fun d =>
    beq_iff_eq.trans eq_comm
  rw [ofSign?, find?_all_eq_some_iff, hiff]
  intro d e hd he
  exact sign_inj (((hiff d).mp hd).symm.trans ((hiff e).mp he))

theorem sameLetters_iff {s t : String} : sameLetters s t = true ↔ SameUpToCase t s := by
  rw [sameUpToCase_iff, sameLetters, beq_iff_eq, eq_comm]

/-- Also in letters of either case, no word is the short name of two comparisons. -/
theorem shortName_unique {word : String} {c d : Comparison} (h : SameUpToCase word c.shortName)
    (h' : SameUpToCase word d.shortName) : c = d := by
  have hsame := (sameUpToCase_iff.mp h).symm.trans (sameUpToCase_iff.mp h')
  cases c <;> cases d <;> first | rfl | exact absurd hsame (by decide)

theorem ofShortName?_eq_some_iff {word : String} {c : Comparison} :
    ofShortName? word = some c ↔ SameUpToCase word c.shortName := by
  rw [ofShortName?, find?_all_eq_some_iff, sameLetters_iff]
  intro d e hd he
  exact shortName_unique (sameLetters_iff.mp hd) (sameLetters_iff.mp he)

/-- No sign is a short name, of the same comparison or of another one. -/
theorem not_sameUpToCase_sign (c d : Comparison) : ¬ SameUpToCase c.sign d.shortName := by
  rw [sameUpToCase_iff]
  cases c <;> cases d <;> decide

/-- **No word names two comparisons.** -/
theorem Names.unique {word : String} {c d : Comparison} (h : Names word c) (h' : Names word d) :
    c = d := by
  cases h with
  | sign h =>
    cases h' with
    | sign h' => exact sign_inj (h.symm.trans h')
    | shortName h' => exact absurd (h ▸ h') (not_sameUpToCase_sign c d)
  | shortName h =>
    cases h' with
    | sign h' => exact absurd (h' ▸ h) (not_sameUpToCase_sign d c)
    | shortName h' => exact shortName_unique h h'

/-- Looking for a sign first and for a short name then finds what a word names. -/
theorem ofWord_eq_some_iff {word : String} {c : Comparison} :
    (ofSign? word).or (ofShortName? word) = some c ↔ Names word c := by
  constructor
  · intro h
    rcases Option.or_eq_some_iff.mp h with hsign | ⟨-, hname⟩
    · exact .sign (ofSign?_eq_some_iff.mp hsign)
    · exact .shortName (ofShortName?_eq_some_iff.mp hname)
  · intro h
    refine Option.or_eq_some_iff.mpr ?_
    cases h with
    | sign hsign => exact .inl (ofSign?_eq_some_iff.mpr hsign)
    | shortName hname =>
      refine .inr ⟨?_, ofShortName?_eq_some_iff.mpr hname⟩
      refine Option.eq_none_iff_forall_ne_some.mpr fun d hd => ?_
      rw [ofSign?_eq_some_iff] at hd
      exact not_sameUpToCase_sign d c (hd ▸ hname)

/-! ### The reader -/

section Reader

variable {s word : String} (h : Trimmed s.toList word.toList)

include h

theorem read_eq_ok_iff {c : Comparison} : read s = .ok c ↔ Names word c := by
  rw [← ofWord_eq_some_iff, read, Text.trim_eq_iff.mpr h]
  cases (ofSign? word).or (ofShortName? word) <;> simp

theorem read_eq_error_iff {u : Unknown} :
    read s = .error u ↔ u = ⟨word⟩ ∧ ∀ c, ¬ Names word c := by
  simp only [← ofWord_eq_some_iff]
  rw [read, Text.trim_eq_iff.mpr h]
  cases (ofSign? word).or (ofShortName? word) <;> simp [eq_comm]

theorem read_padded {before after : String} (hbefore : IsBlank before.toList)
    (hafter : IsBlank after.toList) : read (before ++ s ++ after) = read s := by
  have hpadded : Trimmed (before ++ s ++ after).toList word.toList := by
    rw [String.toList_append, String.toList_append]
    exact h.padded hbefore hafter
  rw [read, read, Text.trim_eq_iff.mpr h, Text.trim_eq_iff.mpr hpadded]

end Reader

theorem trimmed_sign (c : Comparison) : Trimmed c.sign.toList c.sign.toList := by
  rw [← Text.trimChars_eq_iff]
  cases c <;> decide

theorem read_sign (c : Comparison) : read c.sign = .ok c :=
  (read_eq_ok_iff (trimmed_sign c)).mpr (.sign rfl)

/-- **The reader accepts the signs and the short names of comparisons and nothing else.** Of every
text one word is left without the white space around it, and what is read is the one comparison that
this word names: by its sign as it stands, or by its short name in letters of either case. If it
names none, the error holds the word. So a sign is read as it is, white space around a text makes no
difference, and no word is the sign of one comparison and the name of another. -/
theorem read_exact (s : String) :
    ∃ word : String, (∀ w : String, Trimmed s.toList w.toList ↔ w = word) ∧
      (∀ c, read s = .ok c ↔ Names word c) ∧
      (∀ c d, Names word c → Names word d → c = d) ∧
      (∀ u, read s = .error u ↔ u = ⟨word⟩ ∧ ∀ c, ¬ Names word c) ∧
      (∀ c, ofSign? s = some c → read s = .ok c) ∧
      (∀ before after : String, IsBlank before.toList → IsBlank after.toList →
        read (before ++ s ++ after) = read s) ∧
      (∀ c, read (sign c) = .ok c) ∧
      ∀ c d, ¬ (word = sign c ∧ SameUpToCase word (shortName d)) := by
  have hword : Trimmed s.toList (Text.trim s).toList := Text.trim_eq_iff.mp rfl
  refine ⟨Text.trim s, fun w => ?_, fun c => read_eq_ok_iff hword, fun c d => Names.unique,
    fun u => read_eq_error_iff hword, fun c hc => ?_, fun _ _ => read_padded hword, read_sign, ?_⟩
  · rw [← Text.trim_eq_iff, eq_comm]
  · rw [ofSign?_eq_some_iff.mp hc]
    exact read_sign c
  · rintro c d ⟨hsign, hname⟩
    exact not_sameUpToCase_sign c d (hsign ▸ hname)

/-- A sign is no short name: its letters have one case. -/
example : read " =GT=\u3000" = .error ⟨"=GT="⟩ := by decide +kernel

end Comparison

end QueryTree
