import QueryTree.Proofs.Literal.Form
import QueryTree.Proofs.Query.Token

/-!
# Reading tokens off a query

The text of a query determines its tokens (`render_eq_iff`), if no selector contains a character
that may begin the sign of a comparison or begins with a parenthesis, and no quoted text contains a
quote. A query is read from the left in two states. Where an operand is due, a parenthesis opens or
a constraint stands, which ends where its literal does; behind an operand the next character is that
of a token, or the query ends.
-/

namespace QueryTree

open QueryTree.Text

/-! ### Constraints -/

/-- What a query shows of a constraint. -/
structure Lexeme where
  selector : String
  comparison : Comparison
  literal : String
  deriving Repr, DecidableEq

namespace Lexeme

/-- What a query shows of the constraint with these parts. -/
def ofConstraint (selector : String) (comparison : Comparison) (argument : Literal) : Lexeme :=
  ⟨selector, comparison, argument.encode⟩

/-- The parts of a constraint one after the other. -/
def text (l : Lexeme) : String := l.selector ++ l.comparison.sign ++ l.literal

end Lexeme

/-- A selector that can be told from what stands around it. -/
def IsSelector (s : String) : Prop :=
  '=' ∉ s.toList ∧ '!' ∉ s.toList ∧ s.toList.head? ≠ some '('

instance (s : String) : Decidable (IsSelector s) :=
  inferInstanceAs (Decidable ('=' ∉ s.toList ∧ '!' ∉ s.toList ∧ s.toList.head? ≠ some '('))

/-- The characters that begin the signs of comparisons. -/
def beginsSign (c : Char) : Bool := c == '=' || c == '!'

namespace Comparison

theorem stops_sign (c : Comparison) (x : List Char) : Stops beginsSign (c.sign.toList ++ x) := by
  cases c <;> exact stops_cons rfl _

/-- No sign is the beginning of another one. -/
theorem sign_append_inj {c d : Comparison} {x y : List Char}
    (h : c.sign.toList ++ x = d.sign.toList ++ y) : c = d ∧ x = y := by
  cases c <;> cases d <;> simp [sign] at h ⊢ <;> exact h

end Comparison

namespace IsSelector

variable {s : String} (hs : IsSelector s)

include hs

theorem beginsSign_of_mem : ∀ c ∈ s.toList, beginsSign c = false := by
  intro c hc
  rw [← Bool.not_eq_true]
  intro hsign
  simp only [beginsSign, Bool.or_eq_true, beq_iff_eq] at hsign
  rcases hsign with rfl | rfl
  · exact hs.1 hc
  · exact hs.2.1 hc

theorem ne_opening (c : Comparison) (x y : List Char) :
    s.toList ++ (c.sign.toList ++ x) ≠ '(' :: y := by
  intro h
  cases hchars : s.toList with
  | nil =>
    rw [hchars] at h
    cases c <;> cases h
  | cons b bs =>
    rw [hchars] at h
    obtain ⟨rfl, -⟩ := List.cons.inj h
    exact hs.2.2 (by rw [hchars]; rfl)

end IsSelector

namespace Lexeme

/-- The parts of a constraint can be told from each other. -/
structure Separable (l : Lexeme) : Prop where
  selector : IsSelector l.selector
  literal : ∃ a : Literal, a.QuoteFree ∧ l.literal = a.encode

theorem toList_text (l : Lexeme) :
    l.text.toList = l.selector.toList ++ (l.comparison.sign.toList ++ l.literal.toList) := by
  simp [text]

/-- The text of a constraint determines its parts and where it ends: the selector ends at the first
character of a sign, no sign is the beginning of another, and a literal ends in one place only. -/
theorem text_append_inj {l m : Lexeme} (hl : l.Separable) (hm : m.Separable) {x y : List Char}
    (hx : Stops Literal.isBehind x) (hy : Stops Literal.isBehind y)
    (h : l.text.toList ++ x = m.text.toList ++ y) : l = m ∧ x = y := by
  rw [toList_text, toList_text, List.append_assoc, List.append_assoc, List.append_assoc,
    List.append_assoc] at h
  obtain ⟨hselector, h⟩ := append_inj_of_stops hl.selector.beginsSign_of_mem
    hm.selector.beginsSign_of_mem (Comparison.stops_sign _ _) (Comparison.stops_sign _ _) h
  obtain ⟨hcomparison, h⟩ := Comparison.sign_append_inj h
  obtain ⟨a, ha, hla⟩ := hl.literal
  obtain ⟨b, hb, hmb⟩ := hm.literal
  rw [hla, hmb, Literal.encode, Literal.encode, String.toList_ofList, String.toList_ofList] at h
  obtain ⟨hchars, hxy⟩ := Literal.chars_append_inj ha hb hx hy h
  have hliteral : l.literal = m.literal := by
    rw [hla, hmb, Literal.encode, Literal.encode, hchars]
  refine ⟨?_, hxy⟩
  obtain ⟨s, c, v⟩ := l
  obtain ⟨t, d, w⟩ := m
  obtain rfl : s = t := String.toList_inj.mp hselector
  obtain rfl : c = d := hcomparison
  obtain rfl : v = w := hliteral
  rfl

end Lexeme

/-! ### Where an operand is due -/

/-- Tokens of which the constraints satisfy `p`, at a place where an operand is due (`true`) or
behind one (`false`). -/
inductive Token.Alternates {α : Type} (p : α → Prop) : Bool → List (Token α) → Prop where
  | opening {ts : List (Token α)} : Alternates p true ts → Alternates p true (.opening :: ts)
  | constraint {a : α} {ts : List (Token α)} :
    p a → Alternates p false ts → Alternates p true (.constraint a :: ts)
  | closing {ts : List (Token α)} : Alternates p false ts → Alternates p false (.closing :: ts)
  | sign {c : Connective} {ts : List (Token α)} :
    Alternates p true ts → Alternates p false (.sign c :: ts)
  | nil : Alternates p false []

namespace Token

/-- The characters of tokens that show constraints. -/
def lexemeChars (ts : List (Token Lexeme)) : List Char := (texts Lexeme.text ts).toList

@[simp]
theorem lexemeChars_nil : lexemeChars [] = [] := by simp [lexemeChars]

@[simp]
theorem lexemeChars_opening (ts : List (Token Lexeme)) :
    lexemeChars (.opening :: ts) = '(' :: lexemeChars ts := by
  simp [lexemeChars, text]

@[simp]
theorem lexemeChars_closing (ts : List (Token Lexeme)) :
    lexemeChars (.closing :: ts) = ')' :: lexemeChars ts := by
  simp [lexemeChars, text]

@[simp]
theorem lexemeChars_and (ts : List (Token Lexeme)) :
    lexemeChars (.sign .and :: ts) = ',' :: lexemeChars ts := by
  simp [lexemeChars, text, Connective.sign]

@[simp]
theorem lexemeChars_or (ts : List (Token Lexeme)) :
    lexemeChars (.sign .or :: ts) = ';' :: lexemeChars ts := by
  simp [lexemeChars, text, Connective.sign]

@[simp]
theorem lexemeChars_constraint (l : Lexeme) (ts : List (Token Lexeme)) :
    lexemeChars (.constraint l :: ts) = l.text.toList ++ lexemeChars ts := by
  simp [lexemeChars, text]

/-- Where the text of a constraint begins no parenthesis stands. -/
theorem lexemeChars_constraint_ne {l : Lexeme} (hl : l.Separable) (ts us : List (Token Lexeme)) :
    lexemeChars (.constraint l :: ts) ≠ lexemeChars (.opening :: us) := by
  rw [lexemeChars_constraint, lexemeChars_opening, Lexeme.toList_text, List.append_assoc,
    List.append_assoc]
  exact hl.selector.ne_opening _ _ _

/-- Behind an operand a character follows that ends a literal, or nothing. -/
theorem Alternates.stops {p : Lexeme → Prop} {ts : List (Token Lexeme)}
    (h : Alternates p false ts) : Stops Literal.isBehind (lexemeChars ts) := by
  cases h with
  | closing _ =>
    rw [lexemeChars_closing]
    exact stops_cons rfl _
  | @sign c _ _ =>
    cases c with
    | and =>
      rw [lexemeChars_and]
      exact stops_cons rfl _
    | or =>
      rw [lexemeChars_or]
      exact stops_cons rfl _
  | nil => exact stops_nil

/-- **Lexing**: in either state the characters determine the tokens. -/
theorem Alternates.lexemeChars_inj {due : Bool} {ts us : List (Token Lexeme)}
    (ht : Alternates Lexeme.Separable due ts) (hu : Alternates Lexeme.Separable due us)
    (h : lexemeChars ts = lexemeChars us) : ts = us := by
  induction ht generalizing us with
  | @opening ts ht ih =>
    cases hu with
    | opening hu =>
      simp only [lexemeChars_opening, List.cons.injEq, true_and] at h
      rw [ih hu h]
    | constraint hl hu => exact absurd h.symm (lexemeChars_constraint_ne hl _ _)
  | @constraint l ts hl ht ih =>
    cases hu with
    | opening hu => exact absurd h (lexemeChars_constraint_ne hl _ _)
    | constraint hm hu =>
      rw [lexemeChars_constraint, lexemeChars_constraint] at h
      obtain ⟨rfl, hrest⟩ := Lexeme.text_append_inj hl hm ht.stops hu.stops h
      rw [ih hu hrest]
  | @closing ts ht ih =>
    cases hu with
    | closing hu =>
      simp only [lexemeChars_closing, List.cons.injEq, true_and] at h
      rw [ih hu h]
    | @sign c us hu => cases c <;> simp at h
    | nil => simp at h
  | @sign c ts ht ih =>
    cases hu with
    | closing hu => cases c <;> simp at h
    | @sign d us hu =>
      obtain ⟨rfl, hrest⟩ : c = d ∧ lexemeChars ts = lexemeChars us := by
        cases c <;> cases d <;> first | exact ⟨rfl, by simpa using h⟩ | simp at h
      rw [ih hu hrest]
    | nil => cases c <;> simp at h
  | nil =>
    cases hu with
    | closing hu => simp at h
    | @sign c us hu => cases c <;> simp at h
    | nil => rfl

end Token

/-! ### Trees -/

namespace Tree

/-- The tokens of the query of a tree, with what is shown of its constraints. -/
def lexemes (t : Tree) : List (Token Lexeme) := t.tokens Lexeme.ofConstraint false

/-- In every constraint the parts can be told from each other. -/
def Separable : Tree → Prop
  | and left right => left.Separable ∧ right.Separable
  | or left right => left.Separable ∧ right.Separable
  | constraint selector _ argument => IsSelector selector ∧ argument.QuoteFree

instance decidableSeparable : (t : Tree) → Decidable t.Separable
  | and left right =>
    have := decidableSeparable left
    have := decidableSeparable right
    inferInstanceAs (Decidable (left.Separable ∧ right.Separable))
  | or left right =>
    have := decidableSeparable left
    have := decidableSeparable right
    inferInstanceAs (Decidable (left.Separable ∧ right.Separable))
  | constraint selector _ argument =>
    inferInstanceAs (Decidable (IsSelector selector ∧ argument.QuoteFree))

/-- The tokens of a tree stand where an operand is due, and behind them one has been written. -/
theorem alternates_tokens {t : Tree} (h : t.Separable) (guarded : Bool)
    {rest : List (Token Lexeme)} (hrest : Token.Alternates Lexeme.Separable false rest) :
    Token.Alternates Lexeme.Separable true (t.tokens Lexeme.ofConstraint guarded ++ rest) := by
  induction t generalizing guarded rest with
  | and l r ihl ihr =>
    rw [tokens_and, List.append_assoc, List.cons_append]
    exact ihl h.1 _ (.sign (ihr h.2 _ hrest))
  | or l r ihl ihr =>
    rw [tokens_or]
    cases guarded with
    | true =>
      rw [if_pos rfl, List.cons_append, List.append_assoc, List.append_assoc, List.cons_append]
      exact .opening (ihl h.1 _ (.sign (ihr h.2 _ (.closing hrest))))
    | false =>
      rw [if_neg Bool.false_ne_true, List.append_assoc, List.cons_append]
      exact ihl h.1 _ (.sign (ihr h.2 _ hrest))
  | constraint s c a => exact .constraint ⟨h.1, a, h.2, rfl⟩ hrest

/-- **The text of a query determines its tokens.** Two trees with the parts of their constraints
told from each other have the same query text if and only if they have the same tokens: the same
parentheses and signs in the same places, and the same selectors, comparisons and texts of literals.
-/
theorem render_eq_iff {t u : Tree} (ht : t.Separable) (hu : u.Separable) :
    t.render = u.render ↔ t.lexemes = u.lexemes := by
  have htexts : ∀ t : Tree, t.render = Token.texts Lexeme.text t.lexemes :=
    render_eq_texts Lexeme.ofConstraint fun _ _ _ => rfl
  constructor
  · intro h
    have halternates : ∀ {t : Tree}, t.Separable →
        Token.Alternates Lexeme.Separable true t.lexemes := by
      intro t ht
      have := alternates_tokens ht false .nil
      rwa [List.append_nil] at this
    apply (halternates ht).lexemeChars_inj (halternates hu)
    rw [Token.lexemeChars, Token.lexemeChars, ← htexts, ← htexts, h]
  · intro h
    rw [htexts, htexts, h]

/-- Two trees whose literals differ in kind, with signs of queries between quotes. -/
theorem render_eq_iff_of_kinds :
    let t := and (constraint "a" .equals (.byte 1)) (constraint "b" .notEquals (.text "c==2,(d;"))
    let u := and (constraint "a" .equals (.int 1)) (constraint "b" .notEquals (.name "c==2,(d;"))
    t.Separable ∧ u.Separable ∧ (t.render = u.render ↔ t.lexemes = u.lexemes) := by
  intro t u
  have ht : t.Separable := by decide
  have hu : u.Separable := by decide
  exact ⟨ht, hu, render_eq_iff ht hu⟩

end Tree

end QueryTree
