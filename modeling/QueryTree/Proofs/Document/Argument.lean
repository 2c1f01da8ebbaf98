import QueryTree.Proofs.Document.Node

/-!
# What arguments denote

The literal that an argument stands for, as rules on the argument as it stands in the document
(`Literal.OfArgument`, and `Literal.OfKind` for a value under the name of a kind). The reader does
not see the argument itself but a copy with other tags; `Literal.ofValue_reread_eq_ok_iff` says that
the copy makes no difference.
-/

namespace QueryTree

open QueryTree.Yaml (Value)

/-! ### Values that are read again -/

namespace Yaml.Value

/-- The values look the same to every question about a scalar. -/
structure SameScalar (v w : Value) : Prop where
  text : v.text? = w.text?
  bool : v.bool? = w.bool?
  int64 : v.int64? = w.int64?
  double : v.double? = w.double?

theorem SameScalar.of_untagged {v w : Value} (h : v.untagged = w.untagged) : SameScalar v w := by
  constructor
  · rw [text?, text?, h]
  · rw [bool?, bool?, h]
  · rw [int64?, int64?, h]
  · rw [double?, double?, h]

theorem SameScalar.tagged {v w : Value} (h : SameScalar v w) (s t : String) :
    SameScalar (.tagged s v) (.tagged t w) := ⟨h.text, h.bool, h.int64, h.double⟩

/-- Reading a value again changes nothing that a scalar is asked for. -/
theorem sameScalar_of_reread {v w : Value} (h : v.reread = .ok w) : SameScalar v w := by
  fun_induction untagged v generalizing w with
  | case1 tag v ih =>
    rw [reread, map_eq_ok_iff] at h
    obtain ⟨v', hv', rfl⟩ := h
    exact (ih hv').tagged _ _
  | case2 v htag =>
    cases v with
    | tagged tag v => exact absurd rfl (htag tag v)
    | sequence items =>
      rw [reread, map_eq_ok_iff] at h
      obtain ⟨items', -, rfl⟩ := h
      exact ⟨rfl, rfl, rfl, rfl⟩
    | mapping entries =>
      rw [reread, map_eq_ok_iff] at h
      obtain ⟨entries', -, rfl⟩ := h
      exact ⟨rfl, rfl, rfl, rfl⟩
    | _ =>
      cases h
      exact .of_untagged rfl

/-- A scalar can always be read again. -/
theorem exists_reread {v : Value} (hsequence : ∀ items, v.untagged ≠ .sequence items)
    (hmapping : ∀ entries, v.untagged ≠ .mapping entries) : ∃ w, v.reread = .ok w := by
  fun_induction untagged v with
  | case1 tag v ih =>
    obtain ⟨w, hw⟩ := ih hsequence hmapping
    exact ⟨_, by rw [reread, hw]; rfl⟩
  | case2 v htag =>
    cases v with
    | tagged tag v => exact absurd rfl (htag tag v)
    | sequence items => exact absurd rfl (hsequence items)
    | mapping entries => exact absurd rfl (hmapping entries)
    | _ => exact ⟨_, rfl⟩

/-- Reading entries again keeps their number. -/
theorem length_of_rereadEntries {seen entries out : List (Value × Value)}
    (h : rereadEntries seen entries = .ok out) : out.length = seen.length + entries.length := by
  induction entries generalizing seen with
  | nil =>
    cases h
    rfl
  | cons e rest ih =>
    obtain ⟨key, v⟩ := e
    rw [rereadEntries, bind_eq_ok_iff] at h
    obtain ⟨key', -, h⟩ := h
    split at h
    · cases h
    · obtain ⟨v', -, h⟩ := bind_eq_ok_iff.mp h
      rw [ih h, List.length_append, List.length_singleton, List.length_cons]
      omega

/-- A mapping of one entry is read again by reading its key and its value. -/
theorem reread_single (key v : Value) :
    reread (.mapping [(key, v)]) = (do
      let key ← reread key
      let v ← reread v
      .ok (.mapping [(key, v)])) := by
  rw [reread, rereadEntries]
  cases reread key with
  | error e => rfl
  | ok key =>
    show ((do let v ← reread v; rereadEntries [(key, v)] []).map mapping) = _
    cases reread v with
    | error e => rfl
    | ok v => rfl

end Yaml.Value

/-! ### Values of a kind -/

namespace Literal

/-- The literal that a value stands for under the name of a kind. -/
inductive OfKind : String → Value → Literal → Prop where
  | bool {v : Value} {b : Bool} : v.untagged = .bool b → OfKind "bool" v (.bool b)
  | byte {v : Value} {n : Int8} : v.untagged = .int n.toInt → OfKind "byte" v (.byte n)
  | short {v : Value} {n : Int16} : v.untagged = .int n.toInt → OfKind "short" v (.short n)
  | int {v : Value} {n : Int32} : v.untagged = .int n.toInt → OfKind "int" v (.int n)
  | long {v : Value} {n : Int64} : v.untagged = .int n.toInt → OfKind "long" v (.long n)
  /-- Any number, rounded to a single. -/
  | float {v : Value} {bits : UInt64} : v.double? = some bits →
    OfKind "float" v (.float (UInt32.ofNat (Number.Format.convert .double .single bits.toNat)))
  /-- Any number. -/
  | double {v : Value} {bits : UInt64} : v.double? = some bits → OfKind "double" v (.double bits)
  | date {v : Value} {s : String} {d : Calendar.Date} :
    v.untagged = .text s → Calendar.Date.read s = .ok d → OfKind "date" v (.date d)
  | calendar {v : Value} {s : String} {dt : Calendar.DateTime} :
    v.untagged = .text s → Calendar.DateTime.read s = .ok dt → OfKind "calendar" v (.calendar dt)
  | instant {v : Value} {s : String} {dt : Calendar.DateTime} :
    v.untagged = .text s → Calendar.DateTime.read s = .ok dt → OfKind "instant" v (.instant dt)
  | name {v : Value} {s : String} : v.untagged = .text s → OfKind "enum" v (.name s)
  | text {v : Value} {s : String} : v.untagged = .text s → OfKind "string" v (.text s)

theorem integerOf_eq_ok_iff {part : NodePart} {least greatest n : Int} {v : Value}
    (hleast : Int64.minValue.toInt ≤ least) (hgreatest : greatest ≤ Int64.maxValue.toInt) :
    integerOf part least greatest v = .ok n ↔
      v.untagged = .int n ∧ least ≤ n ∧ n ≤ greatest := by
  unfold integerOf Value.int64?
  cases v.untagged with
  | int m =>
    by_cases hm : Int64.minValue.toInt ≤ m ∧ m ≤ Int64.maxValue.toInt
    · by_cases hb : least ≤ m ∧ m ≤ greatest
      · simp only [if_pos hm, if_pos hb, Except.ok.injEq, Value.int.injEq]
        constructor
        · rintro rfl
          exact ⟨rfl, hb⟩
        · exact And.left
      · simp only [if_pos hm, if_neg hb, fail, Value.int.injEq, reduceCtorEq, false_iff]
        rintro ⟨rfl, hn⟩
        exact hb hn
    · simp only [if_neg hm, fail, Value.int.injEq, reduceCtorEq, false_iff]
      rintro ⟨rfl, hn⟩
      omega
  | _ => simp [fail]

/-- The kinds of integers differ in their width alone. -/
theorem integerOf_map_eq_ok_iff {α : Type} {toInt : α → Int} {ofInt : Int → α}
    {make : α → Literal} {part : NodePart} {least greatest : Int} {v : Value} {l : Literal}
    (hleast : Int64.minValue.toInt ≤ least) (hgreatest : greatest ≤ Int64.maxValue.toInt)
    (hrange : ∀ a, least ≤ toInt a ∧ toInt a ≤ greatest) (hleft : ∀ a, ofInt (toInt a) = a)
    (hright : ∀ n, least ≤ n → n ≤ greatest → toInt (ofInt n) = n) :
    (integerOf part least greatest v).map (fun n => make (ofInt n)) = .ok l ↔
      ∃ a, v.untagged = .int (toInt a) ∧ make a = l := by
  rw [map_eq_ok_iff]
  constructor
  · rintro ⟨n, hn, rfl⟩
    obtain ⟨hv, hlow, hhigh⟩ := (integerOf_eq_ok_iff hleast hgreatest).mp hn
    exact ⟨ofInt n, by rw [hright n hlow hhigh, hv], rfl⟩
  · rintro ⟨a, hv, rfl⟩
    exact ⟨toInt a, (integerOf_eq_ok_iff hleast hgreatest).mpr ⟨hv, hrange a⟩, by rw [hleft]⟩

theorem numberOf_eq_ok_iff {part : NodePart} {v : Value} {bits : UInt64} :
    numberOf part v = .ok bits ↔ v.double? = some bits := by
  unfold numberOf
  cases v.double? <;> simp [fail]

theorem textOf_eq_ok_iff {part : NodePart} {v : Value} {s : String} :
    textOf part v = .ok s ↔ v.untagged = .text s := by
  rw [← Value.text?_eq_some_iff]
  unfold textOf
  cases v.text? <;> simp [fail]

theorem dateOf_eq_ok_iff {part : NodePart} {v : Value} {d : Calendar.Date} :
    dateOf part v = .ok d ↔ ∃ s, v.untagged = .text s ∧ Calendar.Date.read s = .ok d := by
  unfold dateOf
  rw [bind_eq_ok_iff]
  refine exists_congr fun s => and_congr textOf_eq_ok_iff ?_
  cases Calendar.Date.read s <;> simp [fail]

theorem dateTimeOf_eq_ok_iff {part : NodePart} {v : Value} {dt : Calendar.DateTime} :
    dateTimeOf part v = .ok dt ↔
      ∃ s, v.untagged = .text s ∧ Calendar.DateTime.read s = .ok dt := by
  unfold dateTimeOf
  rw [bind_eq_ok_iff]
  refine exists_congr fun s => and_congr textOf_eq_ok_iff ?_
  cases Calendar.DateTime.read s <;> simp [fail]

theorem ofTyped_byte_eq_ok_iff {v : Value} {l : Literal} :
    ofTyped "byte" v = .ok l ↔ ∃ n : Int8, v.untagged = .int n.toInt ∧ .byte n = l :=
  integerOf_map_eq_ok_iff (by decide) (by decide) (fun n => ⟨n.minValue_le_toInt, n.toInt_le⟩)
    Int8.ofInt_toInt fun _ hlow hhigh => Int8.toInt_ofInt_of_le hlow (Int.lt_add_one_of_le hhigh)

theorem ofTyped_short_eq_ok_iff {v : Value} {l : Literal} :
    ofTyped "short" v = .ok l ↔ ∃ n : Int16, v.untagged = .int n.toInt ∧ .short n = l :=
  integerOf_map_eq_ok_iff (by decide) (by decide) (fun n => ⟨n.minValue_le_toInt, n.toInt_le⟩)
    Int16.ofInt_toInt fun _ hlow hhigh => Int16.toInt_ofInt_of_le hlow (Int.lt_add_one_of_le hhigh)

theorem ofTyped_int_eq_ok_iff {v : Value} {l : Literal} :
    ofTyped "int" v = .ok l ↔ ∃ n : Int32, v.untagged = .int n.toInt ∧ .int n = l :=
  integerOf_map_eq_ok_iff (by decide) (by decide) (fun n => ⟨n.minValue_le_toInt, n.toInt_le⟩)
    Int32.ofInt_toInt fun _ hlow hhigh => Int32.toInt_ofInt_of_le hlow (Int.lt_add_one_of_le hhigh)

theorem ofTyped_long_eq_ok_iff {v : Value} {l : Literal} :
    ofTyped "long" v = .ok l ↔ ∃ n : Int64, v.untagged = .int n.toInt ∧ .long n = l :=
  integerOf_map_eq_ok_iff (by decide) (by decide) (fun n => ⟨n.minValue_le_toInt, n.toInt_le⟩)
    Int64.ofInt_toInt fun _ hlow hhigh => Int64.toInt_ofInt_of_le hlow (Int.lt_add_one_of_le hhigh)

theorem ofTyped_bool_eq_ok_iff {v : Value} {l : Literal} :
    ofTyped "bool" v = .ok l ↔ ∃ b, v.untagged = .bool b ∧ .bool b = l := by
  simp only [ofTyped, Value.bool?]
  cases v.untagged <;> simp [fail]

/-- **The value of a kind** is read as the literal it stands for. -/
theorem ofTyped_eq_ok_iff {kind : String} {v : Value} {l : Literal} :
    ofTyped kind v = .ok l ↔ OfKind kind v l := by
  constructor
  · intro h
    unfold ofTyped at h
    dsimp only at h
    split at h
    · obtain ⟨b, hv, rfl⟩ := ofTyped_bool_eq_ok_iff.mp h
      exact .bool hv
    · obtain ⟨n, hv, rfl⟩ := ofTyped_byte_eq_ok_iff.mp h
      exact .byte hv
    · obtain ⟨n, hv, rfl⟩ := ofTyped_short_eq_ok_iff.mp h
      exact .short hv
    · obtain ⟨n, hv, rfl⟩ := ofTyped_int_eq_ok_iff.mp h
      exact .int hv
    · obtain ⟨n, hv, rfl⟩ := ofTyped_long_eq_ok_iff.mp h
      exact .long hv
    · obtain ⟨bits, hv, rfl⟩ := map_eq_ok_iff.mp h
      exact .float (numberOf_eq_ok_iff.mp hv)
    · obtain ⟨bits, hv, rfl⟩ := map_eq_ok_iff.mp h
      exact .double (numberOf_eq_ok_iff.mp hv)
    · obtain ⟨d, hv, rfl⟩ := map_eq_ok_iff.mp h
      obtain ⟨s, hs, hd⟩ := dateOf_eq_ok_iff.mp hv
      exact .date hs hd
    · obtain ⟨dt, hv, rfl⟩ := map_eq_ok_iff.mp h
      obtain ⟨s, hs, hdt⟩ := dateTimeOf_eq_ok_iff.mp hv
      exact .calendar hs hdt
    · obtain ⟨dt, hv, rfl⟩ := map_eq_ok_iff.mp h
      obtain ⟨s, hs, hdt⟩ := dateTimeOf_eq_ok_iff.mp hv
      exact .instant hs hdt
    · obtain ⟨s, hv, rfl⟩ := map_eq_ok_iff.mp h
      exact .name (textOf_eq_ok_iff.mp hv)
    · obtain ⟨s, hv, rfl⟩ := map_eq_ok_iff.mp h
      exact .text (textOf_eq_ok_iff.mp hv)
    · cases h
  · intro h
    cases h with
    | bool hv => exact ofTyped_bool_eq_ok_iff.mpr ⟨_, hv, rfl⟩
    | byte hv => exact ofTyped_byte_eq_ok_iff.mpr ⟨_, hv, rfl⟩
    | short hv => exact ofTyped_short_eq_ok_iff.mpr ⟨_, hv, rfl⟩
    | int hv => exact ofTyped_int_eq_ok_iff.mpr ⟨_, hv, rfl⟩
    | long hv => exact ofTyped_long_eq_ok_iff.mpr ⟨_, hv, rfl⟩
    | float hv => exact map_eq_ok_iff.mpr ⟨_, numberOf_eq_ok_iff.mpr hv, rfl⟩
    | double hv => exact map_eq_ok_iff.mpr ⟨_, numberOf_eq_ok_iff.mpr hv, rfl⟩
    | date hs hd => exact map_eq_ok_iff.mpr ⟨_, dateOf_eq_ok_iff.mpr ⟨_, hs, hd⟩, rfl⟩
    | calendar hs hdt => exact map_eq_ok_iff.mpr ⟨_, dateTimeOf_eq_ok_iff.mpr ⟨_, hs, hdt⟩, rfl⟩
    | instant hs hdt => exact map_eq_ok_iff.mpr ⟨_, dateTimeOf_eq_ok_iff.mpr ⟨_, hs, hdt⟩, rfl⟩
    | name hs => exact map_eq_ok_iff.mpr ⟨_, textOf_eq_ok_iff.mpr hs, rfl⟩
    | text hs => exact map_eq_ok_iff.mpr ⟨_, textOf_eq_ok_iff.mpr hs, rfl⟩

/-- Values that look the same to a scalar's questions are read alike. -/
theorem ofTyped_congr (kind : String) {v w : Value} (h : v.SameScalar w) :
    ofTyped kind v = ofTyped kind w := by
  simp only [ofTyped, integerOf, numberOf, textOf, dateOf, dateTimeOf, h.text, h.bool, h.int64,
    h.double]

/-- A value that a kind takes is a scalar. -/
theorem OfKind.exists_reread {kind : String} {v : Value} {l : Literal} (h : OfKind kind v l) :
    ∃ w, v.reread = .ok w := by
  have hdouble : ∀ {bits}, v.double? = some bits →
      (∀ items, v.untagged ≠ .sequence items) ∧ ∀ entries, v.untagged ≠ .mapping entries := by
    intro bits hbits
    unfold Value.double? at hbits
    constructor <;> intro _ hv <;> rw [hv] at hbits <;> cases hbits
  cases h with
  | float hv => exact Value.exists_reread (hdouble hv).1 (hdouble hv).2
  | double hv => exact Value.exists_reread (hdouble hv).1 (hdouble hv).2
  | _ => apply Value.exists_reread <;> intro _ hv <;> simp_all

/-! ### Arguments -/

/-- The literal that an argument stands for: a scalar without a tag has a kind of its own, and a
mapping of one entry names the kind. -/
inductive OfArgument : Value → Literal → Prop where
  | bool (b : Bool) : OfArgument (.bool b) (.bool b)
  | double (bits : UInt64) : OfArgument (.float bits) (.double bits)
  | int (n : Int32) : OfArgument (.int n.toInt) (.int n)
  /-- An integer that 32 bits do not hold. -/
  | long (n : Int64) : (∀ m : Int32, m.toInt ≠ n.toInt) → OfArgument (.int n.toInt) (.long n)
  | text (s : String) : OfArgument (.text s) (.text s)
  | typed {key v : Value} {kind : String} {l : Literal} :
    key.untagged = .text kind → OfKind kind v l → OfArgument (.mapping [(key, v)]) l

theorem ofValue_int_eq_ok_iff {n : Int} {l : Literal} :
    ofValue (.int n) = .ok l ↔ OfArgument (.int n) l := by
  rw [ofValue]
  constructor
  · intro h
    split at h
    case isTrue h32 =>
      cases h
      obtain ⟨m, hm⟩ : ∃ m : Int32, m.toInt = n :=
        ⟨_, Int32.toInt_ofInt_of_le h32.1 (Int.lt_add_one_of_le h32.2)⟩
      rw [← hm, Int32.ofInt_toInt]
      exact .int m
    case isFalse h32 =>
      split at h
      case isTrue h64 =>
        cases h
        obtain ⟨m, hm⟩ : ∃ m : Int64, m.toInt = n :=
          ⟨_, Int64.toInt_ofInt_of_le h64.1 (Int.lt_add_one_of_le h64.2)⟩
        rw [← hm, Int64.ofInt_toInt]
        refine .long m fun k hk => h32 ?_
        rw [← hm, ← hk]
        exact ⟨k.minValue_le_toInt, k.toInt_le⟩
      case isFalse => cases h
  · intro h
    generalize hv : Value.int n = v at h
    cases h with
    | int m =>
      cases hv
      rw [if_pos ⟨m.minValue_le_toInt, m.toInt_le⟩, Int32.ofInt_toInt]
    | long m hlarge =>
      cases hv
      rw [if_neg, if_pos ⟨m.minValue_le_toInt, m.toInt_le⟩, Int64.ofInt_toInt]
      rintro ⟨hlow, hhigh⟩
      exact hlarge _ (Int32.toInt_ofInt_of_le hlow (Int.lt_add_one_of_le hhigh))
    | _ => cases hv

/-- A mapping of one entry is read by its kind, if its key is a text. -/
theorem ofValue_single_eq_ok_iff {key v : Value} {l : Literal} :
    ofValue (.mapping [(key, v)]) = .ok l ↔
      ∃ kind, key.text? = some kind ∧ ofTyped kind v = .ok l := by
  rw [ofValue]
  cases key.text? <;> simp [fail]

/-- **An argument** is read as the literal it stands for, and the copy that the reader sees makes no
difference. -/
theorem ofValue_reread_eq_ok_iff {v : Value} {l : Literal} :
    (∃ w, v.reread = .ok w ∧ ofValue w = .ok l) ↔ OfArgument v l := by
  constructor
  · rintro ⟨w, hw, hl⟩
    cases v with
    | null =>
      cases hw
      cases hl
    | bool b =>
      cases hw
      cases hl
      exact .bool b
    | int n =>
      cases hw
      exact ofValue_int_eq_ok_iff.mp hl
    | float bits =>
      cases hw
      cases hl
      exact .double bits
    | text s =>
      cases hw
      cases hl
      exact .text s
    | sequence items =>
      rw [Value.reread, map_eq_ok_iff] at hw
      obtain ⟨items', -, rfl⟩ := hw
      cases hl
    | tagged tag v =>
      rw [Value.reread, map_eq_ok_iff] at hw
      obtain ⟨v', -, rfl⟩ := hw
      cases hl
    | mapping entries =>
      have hlength : entries.length = 1 := by
        rw [Value.reread, map_eq_ok_iff] at hw
        obtain ⟨entries', hentries, rfl⟩ := hw
        have hsame := Value.length_of_rereadEntries hentries
        unfold ofValue at hl
        split at hl <;> simp_all [fail]
      obtain ⟨⟨key, v⟩, rfl⟩ := List.length_eq_one_iff.mp hlength
      rw [Value.reread_single, bind_eq_ok_iff] at hw
      obtain ⟨key', hkey, hw⟩ := hw
      obtain ⟨v', hv, hw⟩ := bind_eq_ok_iff.mp hw
      cases hw
      obtain ⟨kind, hkind, hl⟩ := ofValue_single_eq_ok_iff.mp hl
      rw [← (Value.sameScalar_of_reread hkey).text] at hkind
      rw [← ofTyped_congr kind (Value.sameScalar_of_reread hv)] at hl
      exact .typed (Value.text?_eq_some_iff.mp hkind) (ofTyped_eq_ok_iff.mp hl)
  · intro h
    cases h with
    | bool b => exact ⟨_, rfl, rfl⟩
    | double bits => exact ⟨_, rfl, rfl⟩
    | int n => exact ⟨_, rfl, ofValue_int_eq_ok_iff.mpr (.int n)⟩
    | long n hlarge => exact ⟨_, rfl, ofValue_int_eq_ok_iff.mpr (.long n hlarge)⟩
    | text s => exact ⟨_, rfl, rfl⟩
    | @typed key v kind l hkey hkind =>
      obtain ⟨key', hkey'⟩ : ∃ key', key.reread = .ok key' := by
        apply Value.exists_reread <;> intro _ h <;> simp_all
      obtain ⟨v', hv'⟩ := hkind.exists_reread
      refine ⟨.mapping [(key', v')], by rw [Value.reread_single, hkey', hv']; rfl, ?_⟩
      refine ofValue_single_eq_ok_iff.mpr ⟨kind, ?_, ?_⟩
      · rw [← (Value.sameScalar_of_reread hkey').text, Value.text?_eq_some_iff, hkey]
      · rw [← ofTyped_congr kind (Value.sameScalar_of_reread hv')]
        exact ofTyped_eq_ok_iff.mpr hkind

end Literal

end QueryTree
