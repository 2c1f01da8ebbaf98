import QueryTree.Proofs.Calendar.Reading
import QueryTree.Proofs.Comparison
import QueryTree.Proofs.Document.Denotation
import QueryTree.Proofs.Number.Conversion

/-!
# Which trees have a document

A tree can be read from some value if and only if its selectors are not empty, its arguments have a
form of their own and its date-times can be read (`Tree.Documentable`). What is read is documentable
by the rules for what documents denote; the other way round, `Tree.document` is an explicit value,
one that a YAML document can hold. A document does not tell the patterns that are no number from one
another, so neither does the comparison of trees here (`Tree.Alike`).
-/

namespace QueryTree

open QueryTree.Yaml (Value)
open QueryTree.Number (Format)

/-! ### The values of documents -/

namespace Yaml.Value

/-- A value that a YAML document can hold. -/
inductive IsProper : Value → Prop where
  | null : IsProper .null
  | bool (b : Bool) : IsProper (.bool b)
  /-- 64 bits, with or without a sign. -/
  | int {n : Int} : -2 ^ 63 ≤ n → n < 2 ^ 64 → IsProper (.int n)
  /-- A value that is no number has one pattern. -/
  | float {bits : UInt64} :
    (Format.double.decode bits.toNat = .nan → bits.toNat = Format.double.notANumber) →
    IsProper (.float bits)
  | text (s : String) : IsProper (.text s)
  | sequence {items : List Value} : (∀ v ∈ items, IsProper v) → IsProper (.sequence items)
  /-- No two keys are equal. -/
  | mapping {entries : List (Value × Value)} :
    (∀ e ∈ entries, IsProper e.1) → (∀ e ∈ entries, IsProper e.2) →
    entries.Pairwise (fun e e' => e.1.same e'.1 = false) → IsProper (.mapping entries)
  | tagged {tag : String} {v : Value} : tag ≠ "" → IsProper v → IsProper (.tagged tag v)

theorem IsProper.single (key : String) {v : Value} (h : IsProper v) :
    IsProper (.mapping [(.text key, v)]) := by
  refine .mapping ?_ ?_ (List.pairwise_singleton _ _)
  · intro e he
    obtain rfl := List.mem_singleton.mp he
    exact .text key
  · intro e he
    obtain rfl := List.mem_singleton.mp he
    exact h

/-- A floating point number that has been converted. -/
theorem IsProper.converted (f : Format) (bits : Nat) :
    IsProper (.float (UInt64.ofNat (f.convert .double bits))) := by
  refine .float fun h => ?_
  rw [UInt64.toNat_ofNat_of_lt' (f.convert_lt .double bits)] at h ⊢
  exact Format.convert_eq_notANumber h

end Yaml.Value

/-! ### Literals -/

namespace Literal

/-- The literals are the same, or both are no number, in the same format. -/
inductive Alike : Literal → Literal → Prop where
  | refl (l : Literal) : Alike l l
  | float {a b : UInt32} : Format.single.decode a.toNat = .nan →
    Format.single.decode b.toNat = .nan → Alike (.float a) (.float b)
  | double {a b : UInt64} : Format.double.decode a.toNat = .nan →
    Format.double.decode b.toNat = .nan → Alike (.double a) (.double b)

/-- The literal is no opaque form, and its date-time can be read if it is one. -/
def Documentable : Literal → Prop
  | .calendar dt => dt.Readable
  | .instant dt => dt.Readable
  | .opaqueForm _ => False
  | _ => True

/-- The value under the name of a kind. -/
def typed (kind : String) (v : Value) : Value := .mapping [(.text kind, v)]

/-- The argument of a document that is read as the literal. -/
def document : Literal → Value
  | .bool b => typed "bool" (.bool b)
  | .byte n => typed "byte" (.int n.toInt)
  | .short n => typed "short" (.int n.toInt)
  | .int n => typed "int" (.int n.toInt)
  | .long n => typed "long" (.int n.toInt)
  | .float bits => typed "float" (.float (UInt64.ofNat (Format.single.convert .double bits.toNat)))
  | .double bits =>
    typed "double" (.float (UInt64.ofNat (Format.double.convert .double bits.toNat)))
  | .calendar dt => typed "calendar" (.text (String.ofList dt.exactChars))
  | .date d => typed "date" (.text (String.ofList d.chars))
  | .instant dt => typed "instant" (.text (String.ofList dt.exactChars))
  | .name s => typed "enum" (.text s)
  | .text s => typed "string" (.text s)
  | .opaqueForm _ => .null

theorem OfKind.documentable {kind : String} {v : Value} {l : Literal} (h : OfKind kind v l) :
    l.Documentable := by
  cases h with
  | calendar _ hread => exact Calendar.DateTime.readable_of_read hread
  | instant _ hread => exact Calendar.DateTime.readable_of_read hread
  | _ => trivial

theorem OfArgument.documentable {v : Value} {l : Literal} (h : OfArgument v l) :
    l.Documentable := by
  cases h with
  | typed _ hkind => exact hkind.documentable
  | _ => trivial

theorem Alike.documentable {a b : Literal} (h : a.Alike b) (ha : a.Documentable) :
    b.Documentable := by
  cases h with
  | refl => exact ha
  | _ => trivial

/-- A single is read from the double with the same value. -/
theorem alike_float (bits : UInt32) :
    Alike (.float (UInt32.ofNat (Format.double.convert .single
      (UInt64.ofNat (Format.single.convert .double bits.toNat)).toNat))) (.float bits) := by
  rw [UInt64.toNat_ofNat_of_lt' (Format.single.convert_lt .double bits.toNat)]
  by_cases hnan : Format.single.decode bits.toNat = .nan
  · have hdouble : Format.double.decode Format.double.notANumber = .nan := by decide
    refine .float ?_ hnan
    rw [Format.convert_of_nan hnan, Format.convert_of_nan hdouble]
    decide
  · rw [Format.convert_convert Format.single_isWithin_double bits.toNat_lt hnan,
      UInt32.ofNat_toNat]
    exact .refl _

theorem alike_double (bits : UInt64) :
    Alike (.double (UInt64.ofNat (Format.double.convert .double bits.toNat))) (.double bits) := by
  by_cases hnan : Format.double.decode bits.toNat = .nan
  · refine .double ?_ hnan
    rw [Format.convert_of_nan hnan]
    decide
  · rw [Format.convert_self bits.toNat_lt hnan, UInt64.ofNat_toNat]
    exact .refl _

/-- The argument of a literal's document stands for the literal. -/
theorem exists_ofArgument_document {l : Literal} (h : l.Documentable) :
    ∃ l', OfArgument l.document l' ∧ l'.Alike l := by
  cases l with
  | bool b => exact ⟨_, .typed rfl (.bool rfl), .refl _⟩
  | byte n => exact ⟨_, .typed rfl (.byte rfl), .refl _⟩
  | short n => exact ⟨_, .typed rfl (.short rfl), .refl _⟩
  | int n => exact ⟨_, .typed rfl (.int rfl), .refl _⟩
  | long n => exact ⟨_, .typed rfl (.long rfl), .refl _⟩
  | float bits => exact ⟨_, .typed rfl (.float rfl), alike_float bits⟩
  | double bits => exact ⟨_, .typed rfl (.double rfl), alike_double bits⟩
  | calendar dt =>
    exact ⟨_, .typed rfl (.calendar rfl (Calendar.DateTime.read_exactChars h)), .refl _⟩
  | date d => exact ⟨_, .typed rfl (.date rfl (Calendar.Date.read_chars d)), .refl _⟩
  | instant dt =>
    exact ⟨_, .typed rfl (.instant rfl (Calendar.DateTime.read_exactChars h)), .refl _⟩
  | name s => exact ⟨_, .typed rfl (.name rfl), .refl _⟩
  | text s => exact ⟨_, .typed rfl (.text rfl), .refl _⟩
  | opaqueForm form => exact absurd h id

theorem isProper_document (l : Literal) : l.document.IsProper := by
  cases l with
  | bool b => exact .single _ (.bool b)
  | byte n => exact .single _ (.int (Int.le_trans (by decide) n.minValue_le_toInt)
    (Int.lt_of_le_of_lt n.toInt_le (by decide)))
  | short n => exact .single _ (.int (Int.le_trans (by decide) n.minValue_le_toInt)
    (Int.lt_of_le_of_lt n.toInt_le (by decide)))
  | int n => exact .single _ (.int (Int.le_trans (by decide) n.minValue_le_toInt)
    (Int.lt_of_le_of_lt n.toInt_le (by decide)))
  | long n => exact .single _ (.int (Int.le_trans (by decide) n.minValue_le_toInt)
    (Int.lt_of_le_of_lt n.toInt_le (by decide)))
  | float bits => exact .single _ (.converted .single bits.toNat)
  | double bits => exact .single _ (.converted .double bits.toNat)
  | calendar dt => exact .single _ (.text _)
  | date d => exact .single _ (.text _)
  | instant dt => exact .single _ (.text _)
  | name s => exact .single _ (.text s)
  | text s => exact .single _ (.text s)
  | opaqueForm form => exact .null

end Literal

/-! ### Trees -/

namespace Tree

/-- The trees have the same shape, selectors and comparisons, and their literals are alike. -/
inductive Alike : Tree → Tree → Prop where
  | join {a b a' b' : Tree} (c : Connective) : Alike a a' → Alike b b' →
    Alike (join c a b) (join c a' b')
  | constraint {a b : Literal} (selector : String) (comparison : Comparison) : a.Alike b →
    Alike (.constraint selector comparison a) (.constraint selector comparison b)

/-- The selectors are not empty, and the literals can be read. -/
def Documentable : Tree → Prop
  | .and a b => a.Documentable ∧ b.Documentable
  | .or a b => a.Documentable ∧ b.Documentable
  | .constraint selector _ argument => selector ≠ "" ∧ argument.Documentable

/-- The value of two nodes that are joined. -/
def joined (c : Connective) (left right : Value) : Value :=
  .mapping [(.text c.key, .sequence [left, right])]

/-- A value that is read as the tree. -/
def document : Tree → Value
  | .and a b => joined .and a.document b.document
  | .or a b => joined .or a.document b.document
  | .constraint selector comparison argument =>
    .mapping [(.text "selector", .text selector), (.text "comparison", .text comparison.sign),
      (.text "argument", argument.document)]

/-! ### What is read is documentable -/

theorem documentable_join (c : Connective) (a b : Tree) :
    (join c a b).Documentable ↔ a.Documentable ∧ b.Documentable := by
  cases c <;> exact Iff.rfl

theorem Denotes.documentable {v : Value} {t : Tree} (h : Denotes v t) : t.Documentable := by
  induction h with
  | join _ _ _ iha ihb => exact (documentable_join _ _ _).mpr ⟨iha, ihb⟩
  | constraint _ hd =>
    obtain ⟨_, _, _, _, _, _, _, -, -, -, -, -, hselector, -, -, hargument⟩ := hd
    exact ⟨hselector, hargument.documentable⟩

theorem Alike.documentable {t u : Tree} (h : t.Alike u) (ht : t.Documentable) :
    u.Documentable := by
  induction h with
  | join c _ _ iha ihb =>
    rw [documentable_join] at ht ⊢
    exact ⟨iha ht.1, ihb ht.2⟩
  | constraint _ _ hl => exact ⟨ht.1, hl.documentable ht.2⟩

/-! ### What is documentable has a document -/

theorem joins_joined (c : Connective) (left right : Value) :
    (joined c left right).Joins c left right := ⟨_, rfl, rfl⟩

theorem exists_denotes_document {t : Tree} (h : t.Documentable) :
    ∃ t', Denotes t.document t' ∧ t'.Alike t := by
  induction t with
  | and a b iha ihb =>
    obtain ⟨a', ha, hla⟩ := iha h.1
    obtain ⟨b', hb, hlb⟩ := ihb h.2
    exact ⟨_, .join (joins_joined .and _ _) ha hb, .join .and hla hlb⟩
  | or a b iha ihb =>
    obtain ⟨a', ha, hla⟩ := iha h.1
    obtain ⟨b', hb, hlb⟩ := ihb h.2
    exact ⟨_, .join (joins_joined .or _ _) ha hb, .join .or hla hlb⟩
  | constraint selector comparison argument =>
    obtain ⟨argument', hargument, hlike⟩ := Literal.exists_ofArgument_document h.2
    have hdenotes : DenotesConstraint [(.text "selector", .text selector),
        (.text "comparison", .text comparison.sign), (.text "argument", argument.document)]
        selector comparison argument' :=
      ⟨_, _, _, _, _, _, _, .refl _, rfl, rfl, rfl, rfl, h.1, rfl, comparison.read_sign,
        hargument⟩
    exact ⟨_, .constraint rfl hdenotes, .constraint selector comparison hlike⟩

theorem isProper_joined (c : Connective) {left right : Value} (hleft : left.IsProper)
    (hright : right.IsProper) : (joined c left right).IsProper := by
  refine .single _ (.sequence ?_)
  rintro v (_ | ⟨_, _ | ⟨_, ⟨⟩⟩⟩)
  · exact hleft
  · exact hright

theorem isProper_document (t : Tree) : t.document.IsProper := by
  induction t with
  | and a b iha ihb => exact isProper_joined .and iha ihb
  | or a b iha ihb => exact isProper_joined .or iha ihb
  | constraint selector comparison argument =>
    refine .mapping ?_ ?_ ?_
    · simp only [List.forall_mem_cons]
      exact ⟨.text _, .text _, .text _, List.forall_mem_nil _⟩
    · simp only [List.forall_mem_cons]
      exact ⟨.text _, .text _, argument.isProper_document, List.forall_mem_nil _⟩
    · simp [Value.same]

theorem documentable_of_ofValue {v : Value} {t t' : Tree} (hv : ofValue v = .ok t')
    (h : t'.Alike t) : t.Documentable :=
  h.documentable (denotes_of_ofValue hv).documentable

theorem exists_ofValue_document {t : Tree} (h : t.Documentable) :
    ∃ t', ofValue t.document = .ok t' ∧ t'.Alike t := by
  obtain ⟨t', hdenotes, hlike⟩ := exists_denotes_document h
  exact ⟨t', ofValue_of_denotes hdenotes, hlike⟩

/-- **The trees that documents can produce** are those whose selectors are not empty and whose
literals can be read, whatever their shape. It makes no difference whether all values are considered
or only those that a YAML document can hold. -/
theorem exists_ofValue_iff_documentable (t : Tree) :
    ((∃ v t', ofValue v = .ok t' ∧ t'.Alike t) ↔ t.Documentable) ∧
      ((∃ v t', v.IsProper ∧ ofValue v = .ok t' ∧ t'.Alike t) ↔ t.Documentable) := by
  constructor
  · constructor
    · rintro ⟨v, t', hv, hlike⟩
      exact documentable_of_ofValue hv hlike
    · intro h
      obtain ⟨t', hv, hlike⟩ := exists_ofValue_document h
      exact ⟨_, t', hv, hlike⟩
  · constructor
    · rintro ⟨v, t', -, hv, hlike⟩
      exact documentable_of_ofValue hv hlike
    · intro h
      obtain ⟨t', hv, hlike⟩ := exists_ofValue_document h
      exact ⟨_, t', isProper_document t, hv, hlike⟩

end Tree

end QueryTree
