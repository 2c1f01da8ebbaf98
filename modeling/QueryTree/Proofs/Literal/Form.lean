import QueryTree.Literal.Encoding
import QueryTree.Proofs.Calendar.Writing
import QueryTree.Proofs.Number.Positional
import QueryTree.Proofs.Text.Front

/-!
# Forms of literals

The eight forms that the text of a literal takes. Each can be told from the characters of the text
alone (`formOf_chars`), so no text of one form is a text of another. The text also tells where it
ends in a query (`chars_append_inj`): a quoted one at the next quote, any other one at the first
character that may stand behind a literal.
-/

namespace QueryTree

open QueryTree.Calendar QueryTree.Number QueryTree.Text

/-- The forms of the texts of literals. -/
inductive Form where
  | boolean
  | integer
  | long
  | float
  | double
  | date
  | dateTime
  | quoted
  deriving Repr, DecidableEq

namespace Literal

/-- The form of a literal's text. -/
def form : Literal → Form
  | bool _ => .boolean
  | byte _ => .integer
  | short _ => .integer
  | int _ => .integer
  | long _ => .long
  | float _ => .float
  | double _ => .double
  | calendar dt => if dt.time.isMidnight then .date else .dateTime
  | date _ => .date
  | instant _ => .dateTime
  | name _ => .quoted
  | text _ => .quoted
  | opaqueForm _ => .quoted

/-- The form of a text, told by the characters that occur in it. -/
def formOf (cs : List Char) : Form :=
  if cs.head? = some '\'' then .quoted
  else if 'e' ∈ cs then .boolean
  else if 'l' ∈ cs then .long
  else if 'd' ∈ cs then .double
  else if 'T' ∈ cs then .dateTime
  else if '.' ∈ cs ∨ 'N' ∈ cs ∨ 'I' ∈ cs then .float
  else if '-' ∈ cs.tail then .date
  else .integer

/-- A text that uses no quote does not begin with one. -/
theorem head?_ne_quote {others cs : List Char} (h : Uses others cs) (hq : '\'' ∉ others) :
    cs.head? ≠ some '\'' :=
  fun hhead => h.notMem rfl hq (List.mem_of_mem_head? hhead)

theorem formOf_integer (n : Int) : formOf (Text.integer n) = .integer := by
  have h := uses_integer n
  rw [formOf, if_neg (head?_ne_quote h (by decide)), if_neg (h.notMem rfl (by decide)),
    if_neg (h.notMem rfl (by decide)), if_neg (h.notMem rfl (by decide)),
    if_neg (h.notMem rfl (by decide)), if_neg, if_neg (hyphen_notMem_tail_integer n)]
  rintro (hc | hc | hc) <;> exact h.notMem rfl (by decide) hc

theorem formOf_long (n : Int) : formOf (Text.integer n ++ ['l']) = .long := by
  have h : Uses ['-', 'l'] (Text.integer n ++ ['l']) := by
    simpa using (uses_integer n).mono (by simp)
  rw [formOf, if_neg (head?_ne_quote h (by decide)), if_neg (h.notMem rfl (by decide)),
    if_pos (by simp)]

theorem formOf_float (f : Format) (bits : Nat) : formOf (Layout.query.write f bits) = .float := by
  have h := Layout.uses_query f bits
  rw [formOf, if_neg (head?_ne_quote h (by decide)), if_neg (h.notMem rfl (by decide)),
    if_neg (h.notMem rfl (by decide)), if_neg (h.notMem rfl (by decide)),
    if_neg (h.notMem rfl (by decide)), if_pos (Layout.mark_mem_query f bits)]

theorem formOf_double (f : Format) (bits : Nat) :
    formOf (Layout.query.write f bits ++ ['d']) = .double := by
  have h : Uses ('d' :: '-' :: '.' :: "NaInfity".toList) (Layout.query.write f bits ++ ['d']) := by
    simpa using (Layout.uses_query f bits).mono (by simp)
  rw [formOf, if_neg (head?_ne_quote h (by decide)), if_neg (h.notMem rfl (by decide)),
    if_neg (h.notMem rfl (by decide)), if_pos (by simp)]

theorem formOf_date (d : Date) : formOf d.chars = .date := by
  have h := d.uses_chars
  rw [formOf, if_neg (head?_ne_quote h (by decide)), if_neg (h.notMem rfl (by decide)),
    if_neg (h.notMem rfl (by decide)), if_neg (h.notMem rfl (by decide)),
    if_neg (h.notMem rfl (by decide)), if_neg, if_pos d.hyphen_mem_tail_chars]
  rintro (hc | hc | hc) <;> exact h.notMem rfl (by decide) hc

theorem uses_dateTime (dt : DateTime) : Uses ['-', '+', ':', 'Z', '.', 'T'] dt.chars := by
  have hdate : Uses ['-', '+', ':', 'Z', '.', 'T'] dt.date.chars :=
    dt.date.uses_chars.mono (by simp)
  have hclock : Uses ['-', '+', ':', 'Z', '.', 'T'] dt.clockChars :=
    dt.uses_clockChars.mono (by simp)
  simp [DateTime.chars, hdate, hclock]

theorem formOf_dateTime (dt : DateTime) : formOf dt.chars = .dateTime := by
  have h := uses_dateTime dt
  rw [formOf, if_neg (head?_ne_quote h (by decide)), if_neg (h.notMem rfl (by decide)),
    if_neg (h.notMem rfl (by decide)), if_neg (h.notMem rfl (by decide)),
    if_pos (by simp [DateTime.chars])]

/-- **The text tells the form.** -/
theorem formOf_chars (l : Literal) : formOf l.chars = l.form := by
  cases l with
  | bool b => cases b <;> decide
  | byte n => exact formOf_integer _
  | short n => exact formOf_integer _
  | int n => exact formOf_integer _
  | long n => exact formOf_long _
  | float b => exact formOf_float _ _
  | double b => exact formOf_double _ _
  | calendar dt =>
    show formOf (if dt.time.isMidnight then dt.date.chars else dt.chars) =
      if dt.time.isMidnight then .date else .dateTime
    split
    · exact formOf_date _
    · exact formOf_dateTime _
  | date d => exact formOf_date _
  | instant dt => exact formOf_dateTime _
  | name s => rfl
  | text s => rfl
  | opaqueForm s => rfl

/-! ### Where a literal ends -/

/-- What stands between the quotes of a literal, if it is quoted. -/
def inner? : Literal → Option String
  | name s => some s
  | text s => some s
  | opaqueForm s => some s
  | _ => none

/-- No quote occurs between the quotes of the literal. -/
def QuoteFree (l : Literal) : Prop := ∀ s ∈ l.inner?, '\'' ∉ s.toList

instance (l : Literal) : Decidable l.QuoteFree :=
  inferInstanceAs (Decidable (∀ s ∈ l.inner?, '\'' ∉ s.toList))

theorem chars_of_inner? {l : Literal} {s : String} (h : l.inner? = some s) :
    l.chars = quote s := by
  cases l <;> first | cases h; rfl | cases h

/-- The characters of the literals that are not quoted, apart from digits. -/
def plainMarks : List Char :=
  ['-', '+', ':', '.', 'T', 'Z', 'l', 'd', 't', 'r', 'u', 'e', 'f', 'a', 's', 'N', 'I', 'n', 'i',
    'y']

theorem uses_of_inner? {l : Literal} (h : l.inner? = none) : Uses plainMarks l.chars := by
  have hinteger : ∀ n, Uses plainMarks (Text.integer n) := fun n =>
    (uses_integer n).mono (by simp [plainMarks])
  have hnumber : ∀ f bits, Uses plainMarks (Layout.query.write f bits) := fun f bits =>
    (Layout.uses_query f bits).mono (by simp [plainMarks])
  have hdate : ∀ d : Date, Uses plainMarks d.chars := fun d =>
    d.uses_chars.mono (by simp [plainMarks])
  have hdateTime : ∀ dt : DateTime, Uses plainMarks dt.chars := fun dt =>
    (uses_dateTime dt).mono (by simp [plainMarks])
  have hlong : Uses plainMarks ['l'] := by simp [plainMarks]
  have hdouble : Uses plainMarks ['d'] := by simp [plainMarks]
  cases l with
  | bool b => cases b <;> simp [chars, plainMarks]
  | byte n => exact hinteger _
  | short n => exact hinteger _
  | int n => exact hinteger _
  | long n => exact (uses_append _ _).mpr ⟨hinteger _, hlong⟩
  | float b => exact hnumber _ _
  | double b => exact (uses_append _ _).mpr ⟨hnumber _ _, hdouble⟩
  | calendar dt =>
    show Uses plainMarks (if dt.time.isMidnight then dt.date.chars else dt.chars)
    split
    · exact hdate _
    · exact hdateTime _
  | date d => exact hdate _
  | instant dt => exact hdateTime _
  | name s => cases h
  | text s => cases h
  | opaqueForm s => cases h

/-- The characters that may stand behind a literal in a query. -/
def isBehind (c : Char) : Bool := c == ',' || c == ';' || c == ')'

/-- A text of a literal that is not quoted has none of the characters behind it. -/
theorem isBehind_of_mem {l : Literal} (h : l.inner? = none) :
    ∀ c ∈ l.chars, isBehind c = false := by
  intro c hc
  rw [← Bool.not_eq_true]
  intro hbehind
  simp only [isBehind, Bool.or_eq_true, beq_iff_eq] at hbehind
  have huses := uses_of_inner? h
  rcases hbehind with (rfl | rfl) | rfl <;> exact huses.notMem rfl (by decide) hc

/-- **A literal ends in one place only**: two texts of literals with something behind each are the
same only if the literals' texts are. -/
theorem chars_append_inj {a b : Literal} (ha : a.QuoteFree) (hb : b.QuoteFree) {x y : List Char}
    (hx : Stops isBehind x) (hy : Stops isBehind y) (h : a.chars ++ x = b.chars ++ y) :
    a.chars = b.chars ∧ x = y := by
  -- a text without quotes and what is behind it do not begin with a quote
  have plain_ne : ∀ {l : Literal} {z : List Char} {s : String} {w : List Char},
      l.inner? = none → Stops isBehind z → l.chars ++ z ≠ quote s ++ w := by
    intro l z s w hl hz heq
    have hhead : (l.chars ++ z).head? = some '\'' := by rw [heq]; rfl
    cases hc : l.chars with
    | nil =>
      rw [hc] at hhead
      cases hz '\'' hhead
    | cons c cs =>
      rw [hc] at hhead
      obtain rfl : c = '\'' := by simpa using hhead
      exact (uses_of_inner? hl).notMem rfl (by decide) (hc ▸ List.mem_cons_self ..)
  cases hia : a.inner? with
  | none =>
    cases hib : b.inner? with
    | none => exact append_inj_of_stops (isBehind_of_mem hia) (isBehind_of_mem hib) hx hy h
    | some s =>
      rw [chars_of_inner? hib] at h
      exact absurd h (plain_ne hia hx)
  | some s =>
    cases hib : b.inner? with
    | none =>
      rw [chars_of_inner? hia] at h
      exact absurd h.symm (plain_ne hib hy)
    | some r =>
      rw [chars_of_inner? hia, chars_of_inner? hib] at h ⊢
      simp only [quote, List.append_assoc, List.singleton_append] at h
      obtain ⟨hsr, hxy⟩ := append_cons_inj (ha s hia) (hb r hib) (List.cons.inj h).2
      exact ⟨by rw [quote, quote, hsr], hxy⟩

end Literal

end QueryTree
