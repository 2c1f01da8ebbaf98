import Mathlib.Algebra.GroupWithZero.Nat
import QueryTree.Proofs.Query.Position

/-!
# Where the parentheses stand

A tree laid out from left to right, with parentheses around the disjunctions at given positions
(`Tree.layout`). `write_eq_layout` says that `Tree.write` lays a tree out with the positions at
which its flag arrives raised, where these are, that the parentheses are nested, and how long the
text is.
-/

namespace QueryTree

variable {α : Type}

namespace Token

/-- Tokens whose parentheses are nested: each opening one has its closing one. -/
inductive Nested : List (Token α) → Prop where
  /-- No tokens. -/
  | nil : Nested []
  /-- A token that is no parenthesis. -/
  | plain {t : Token α} {ts : List (Token α)} :
    t.isParenthesis = false → Nested ts → Nested (t :: ts)
  /-- Nested tokens between parentheses, and what follows. -/
  | pair {ts us : List (Token α)} : Nested ts → Nested us →
      Nested (.opening :: (ts ++ .closing :: us))

theorem Nested.append {ts us : List (Token α)} (h : Nested ts) (h' : Nested us) :
    Nested (ts ++ us) := by
  induction h with
  | nil => exact h'
  | plain ht _ ih => exact .plain ht ih
  | pair h₁ _ _ ih => simpa using Nested.pair h₁ ih

/-- Tokens without the parentheses. -/
def bare (ts : List (Token α)) : List (Token α) := ts.filter fun t => !t.isParenthesis

theorem bare_append (ts us : List (Token α)) : bare (ts ++ us) = bare ts ++ bare us :=
  List.filter_append ..

end Token

namespace Tree

variable (label : String → Comparison → Literal → α)

/-- The constraints and the signs between them, from left to right. -/
def infixTokens : Tree → List (Token α)
  | and left right => left.infixTokens ++ .sign .and :: right.infixTokens
  | or left right => left.infixTokens ++ .sign .or :: right.infixTokens
  | constraint selector comparison argument => [.constraint (label selector comparison argument)]

/-- The constraints and the signs between them, with a pair of parentheses around each disjunction
whose position is wrapped. -/
def layout : Tree → (Position → Bool) → List (Token α)
  | and left right, wrapped =>
    left.layout (fun p => wrapped (.left :: p)) ++
      .sign .and :: right.layout fun p => wrapped (.right :: p)
  | or left right, wrapped =>
    let inner := left.layout (fun p => wrapped (.left :: p)) ++
      .sign .or :: right.layout fun p => wrapped (.right :: p)
    if wrapped [] then .opening :: (inner ++ [.closing]) else inner
  | constraint selector comparison argument, _ => [.constraint (label selector comparison argument)]

/-- The tokens of a tree are its layout with the positions at which the flag arrives raised. -/
theorem tokens_eq_layout (t : Tree) (guarded : Bool) :
    t.tokens label guarded = t.layout label (t.arrival guarded) := by
  induction t generalizing guarded with
  | and l r ihl ihr =>
    simp [layout, arrival, write_snd, ihl, ihr]
  | or l r ihl ihr =>
    cases guarded <;> simp [layout, arrival, write_snd, tokens_or, ihl, ihr]
  | constraint s c a => rfl

/-- Apart from the parentheses nothing is added, lost or moved. -/
theorem bare_layout (t : Tree) (wrapped : Position → Bool) :
    Token.bare (t.layout label wrapped) = t.infixTokens label := by
  induction t generalizing wrapped with
  | and l r ihl ihr =>
    rw [layout, Token.bare_append, ihl]
    exact congrArg _ (congrArg _ (ihr _))
  | or l r ihl ihr =>
    have inner : Token.bare (l.layout label (fun p => wrapped (.left :: p)) ++
        .sign .or :: r.layout label fun p => wrapped (.right :: p)) =
        (or l r).infixTokens label := by
      rw [Token.bare_append, ihl]
      exact congrArg _ (congrArg _ (ihr _))
    rw [layout]
    split
    · rw [← inner]
      simp [Token.bare, Token.isParenthesis]
    · exact inner
  | constraint s c a => rfl

/-- The parentheses of a layout are nested. -/
theorem nested_layout (t : Tree) (wrapped : Position → Bool) :
    Token.Nested (t.layout label wrapped) := by
  induction t generalizing wrapped with
  | and l r ihl ihr => exact (ihl _).append (.plain rfl (ihr _))
  | or l r ihl ihr =>
    have inner := (ihl fun p => wrapped (.left :: p)).append
      (.plain (t := .sign .or) rfl (ihr fun p => wrapped (.right :: p)))
    rw [layout]
    split
    · exact .pair inner .nil
    · exact inner
  | constraint s c a => exact .plain rfl .nil

/-! ### Lengths -/

/-- The positions of the disjunctions. -/
def disjunctions : Tree → List Position
  | and left right =>
    left.disjunctions.map (.left :: ·) ++ right.disjunctions.map (.right :: ·)
  | or left right =>
    [] :: (left.disjunctions.map (.left :: ·) ++ right.disjunctions.map (.right :: ·))
  | constraint _ _ _ => []

/-- The number of connectives. -/
def connectives : Tree → Nat
  | and left right => left.connectives + right.connectives + 1
  | or left right => left.connectives + right.connectives + 1
  | constraint _ _ _ => 0

/-- The query texts of the constraints, from left to right. -/
def constraintTexts : Tree → List String
  | and left right => left.constraintTexts ++ right.constraintTexts
  | or left right => left.constraintTexts ++ right.constraintTexts
  | constraint selector comparison argument => [constraintText selector comparison argument]

/-- The positions of the disjunctions are those at which a disjunction stands. -/
theorem mem_disjunctions (t : Tree) (p : Position) :
    p ∈ t.disjunctions ↔ ∃ l r, t.at? p = some (or l r) := by
  induction t generalizing p with
  | and l r ihl ihr =>
    cases p with
    | nil => simp [disjunctions]
    | cons s p => cases s <;> simp [disjunctions, ihl, ihr, at?, child?]
  | or l r ihl ihr =>
    cases p with
    | nil => simp [disjunctions]
    | cons s p => cases s <;> simp [disjunctions, ihl, ihr, at?, child?]
  | constraint s c a => cases p <;> simp [disjunctions]

/-- No position is listed twice. -/
theorem nodup_disjunctions (t : Tree) : t.disjunctions.Nodup := by
  have below : ∀ (s : Side) {ps : List Position}, ps.Nodup → (ps.map (s :: ·)).Nodup :=
    fun s ps h => List.pairwise_map.mpr (h.imp fun hne he => hne (List.cons.inj he).2)
  have joined : ∀ {l r : Tree}, l.disjunctions.Nodup → r.disjunctions.Nodup →
      (l.disjunctions.map (Side.left :: ·) ++ r.disjunctions.map (Side.right :: ·)).Nodup := by
    intro l r hl hr
    refine List.nodup_append.mpr ⟨below .left hl, below .right hr, ?_⟩
    intro p hp q hq
    obtain ⟨p', -, rfl⟩ := List.mem_map.mp hp
    obtain ⟨q', -, rfl⟩ := List.mem_map.mp hq
    simp
  induction t with
  | and l r ihl ihr => exact joined ihl ihr
  | or l r ihl ihr => exact List.nodup_cons.mpr ⟨by simp, joined ihl ihr⟩
  | constraint s c a => exact List.nodup_nil

/-- Positions below one side are counted in the tree on that side. -/
theorem length_filter_below (wrapped : Position → Bool) (s : Side) (ps : List Position) :
    ((ps.map (s :: ·)).filter wrapped).length =
      (ps.filter fun p : Position => wrapped (s :: p)).length := by
  rw [List.filter_map, List.length_map]
  rfl

/-- The size of a layout, for a way of measuring texts that adds up and by which parentheses and
signs are one long. -/
theorem measure_layout {size : String → Nat} (nil : size "" = 0)
    (append : ∀ a b, size (a ++ b) = size a + size b)
    (one : ∀ s ∈ ["(", ")", ",", ";"], size s = 1) (t : Tree) (wrapped : Position → Bool) :
    size (Token.texts id (t.layout constraintText wrapped)) =
      (t.constraintTexts.map size).sum + t.connectives +
        2 * (t.disjunctions.filter wrapped).length := by
  have hopen : size "(" = 1 := one _ (by simp)
  have hclose : size ")" = 1 := one _ (by simp)
  have hand : size "," = 1 := one _ (by simp)
  have hor : size ";" = 1 := one _ (by simp)
  induction t generalizing wrapped with
  | and l r ihl ihr =>
    simp only [layout, Token.texts_append, Token.texts_cons, Token.text, Connective.sign, append,
      ihl, ihr, hand, constraintTexts, connectives, disjunctions, List.map_append,
      List.sum_append, List.filter_append, List.length_append, length_filter_below]
    omega
  | or l r ihl ihr =>
    cases h : wrapped [] <;>
      simp only [layout, h, Token.texts_append, Token.texts_cons, Token.texts_nil, Token.text,
        Connective.sign, append, nil, ihl, ihr, hopen, hclose, hor, constraintTexts, connectives,
        disjunctions, List.map_append, List.sum_append, List.filter_cons, List.filter_append,
        List.length_append, List.length_cons, length_filter_below, ↓reduceIte,
        Bool.false_eq_true] <;>
      omega
  | constraint s c a =>
    simp [layout, Token.text, constraintTexts, connectives, disjunctions]

/-! ### The main result -/

/-- **Where the parentheses stand**: whatever has been written and whether or not the flag is
raised, a tree is laid out with parentheses around the disjunctions at which the flag arrives
raised. If it begins lowered, these are the protected ones. It is left raised if it began so and the
tree contains no conjunction. Nothing but parentheses comes to the constraints and the signs between
them, the parentheses are nested, and the length, in characters and in bytes, is that of the
constraints with one for each connective and two for each wrapped disjunction. -/
theorem write_eq_layout (t : Tree) (out : String) (guarded : Bool) :
    t.write out guarded =
        (out ++ Token.texts id (t.layout constraintText (t.arrival guarded)),
          guarded && !t.hasConjunction) ∧
      (∀ p, t.arrival false p = true ↔ t.Protected p) ∧
      Token.bare (t.layout constraintText (t.arrival guarded)) = t.infixTokens constraintText ∧
      Token.Nested (t.layout constraintText (t.arrival guarded)) ∧
      (t.disjunctions.Nodup ∧ ∀ p, p ∈ t.disjunctions ↔ ∃ l r, t.at? p = some (or l r)) ∧
      (t.write out guarded).1.length = out.length + ((t.constraintTexts.map String.length).sum +
        t.connectives + 2 * (t.disjunctions.filter (t.arrival guarded)).length) ∧
      (t.write out guarded).1.utf8ByteSize =
        out.utf8ByteSize + ((t.constraintTexts.map String.utf8ByteSize).sum +
          t.connectives + 2 * (t.disjunctions.filter (t.arrival guarded)).length) := by
  have hw : t.write out guarded = (out ++ Token.texts id (t.layout constraintText
      (t.arrival guarded)), guarded && !t.hasConjunction) := by
    rw [← tokens_eq_layout]
    exact write_eq_texts constraintText (fun _ _ _ => rfl) t out guarded
  refine ⟨hw, t.arrival_false_iff, bare_layout _ t _, nested_layout _ t _,
    ⟨t.nodup_disjunctions, t.mem_disjunctions⟩, ?_, ?_⟩
  · rw [hw, String.length_append]
    exact congrArg _ (measure_layout rfl String.length_append (by decide) t _)
  · rw [hw, String.utf8ByteSize_append]
    exact congrArg _ (measure_layout rfl (fun _ _ => String.utf8ByteSize_append) (by decide) t _)

end Tree

end QueryTree
