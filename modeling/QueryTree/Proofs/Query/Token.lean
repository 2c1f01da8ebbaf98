import QueryTree.Tree.Rendering

/-!
# Tokens of queries

A query as a list of tokens: parentheses, the signs of the connectives, and constraints. A
constraint is one token; what is kept of it is its *label*, which may be its text or the constraint
itself. `Tree.tokens` writes the tokens of a tree, with the flag of `Tree.write` going along with
them, and `write_eq_texts` says that their texts are what `Tree.write` puts after a text.
-/

namespace QueryTree

/-- A token of a query. -/
inductive Token (α : Type) where
  /-- An opening parenthesis. -/
  | opening
  /-- A closing parenthesis. -/
  | closing
  /-- The sign of a connective. -/
  | sign (connective : Connective)
  /-- A constraint, by its label. -/
  | constraint (label : α)
  deriving Repr, DecidableEq

variable {α : Type}

namespace Token

/-- The text of a token, when labels have texts. -/
def text (labelText : α → String) : Token α → String
  | opening => "("
  | closing => ")"
  | sign c => c.sign
  | constraint a => labelText a

/-- The texts of tokens one after the other. -/
def texts (labelText : α → String) : List (Token α) → String
  | [] => ""
  | t :: ts => t.text labelText ++ texts labelText ts

variable (labelText : α → String)

@[simp]
theorem texts_nil : texts labelText [] = "" := rfl

@[simp]
theorem texts_cons (t : Token α) (ts : List (Token α)) :
    texts labelText (t :: ts) = t.text labelText ++ texts labelText ts := rfl

@[simp]
theorem texts_append (ts us : List (Token α)) :
    texts labelText (ts ++ us) = texts labelText ts ++ texts labelText us := by
  induction ts with
  | nil => simp
  | cons t ts ih => simp [ih, String.append_assoc]

/-- Whether a token is a parenthesis. -/
def isParenthesis : Token α → Bool
  | opening => true
  | closing => true
  | _ => false

end Token

namespace Tree

/-- The tree contains a conjunction. -/
def hasConjunction : Tree → Bool
  | and _ _ => true
  | or left right => left.hasConjunction || right.hasConjunction
  | constraint _ _ _ => false

variable (label : String → Comparison → Literal → α)

/-- The tokens of a tree that is written when the flag is `guarded`. A conjunction raises the flag
for its left tree, and a tree with a conjunction in it leaves the flag lowered. -/
def tokens : Tree → Bool → List (Token α)
  | and left right, _ =>
    left.tokens true ++ .sign .and :: right.tokens (!left.hasConjunction)
  | or left right, guarded =>
    let inner := left.tokens guarded ++ .sign .or :: right.tokens (guarded && !left.hasConjunction)
    if guarded then .opening :: (inner ++ [.closing]) else inner
  | constraint selector comparison argument, _ => [.constraint (label selector comparison argument)]

@[simp]
theorem tokens_constraint (s : String) (c : Comparison) (a : Literal) (guarded : Bool) :
    (constraint s c a).tokens label guarded = [.constraint (label s c a)] := rfl

@[simp]
theorem tokens_and (l r : Tree) (guarded : Bool) :
    (and l r).tokens label guarded =
      l.tokens label true ++ .sign .and :: r.tokens label (!l.hasConjunction) := rfl

theorem tokens_or (l r : Tree) (guarded : Bool) :
    (or l r).tokens label guarded =
      if guarded then
        .opening :: ((l.tokens label true ++ .sign .or :: r.tokens label (!l.hasConjunction)) ++
          [.closing])
      else l.tokens label false ++ .sign .or :: r.tokens label false := by
  cases guarded <;> rfl

/-- **Writing**: a tree's text is put after what has been written, and the flag stays raised only
past a tree without a conjunction. -/
theorem write_eq_texts {labelText : α → String}
    (h : ∀ s c a, labelText (label s c a) = constraintText s c a) (t : Tree) (out : String)
    (guarded : Bool) :
    t.write out guarded =
      (out ++ Token.texts labelText (t.tokens label guarded), guarded && !t.hasConjunction) := by
  induction t generalizing out guarded with
  | and l r ihl ihr =>
    simp [write, ihl, ihr, hasConjunction, Token.text, String.append_assoc]
  | or l r ihl ihr =>
    cases guarded <;>
      simp [write, ihl, ihr, tokens_or, hasConjunction, Token.text, String.append_assoc]
  | constraint s c a => simp [write, hasConjunction, Token.text, h]

/-- The query text of a tree is made of the texts of its tokens. -/
theorem render_eq_texts {labelText : α → String}
    (h : ∀ s c a, labelText (label s c a) = constraintText s c a) (t : Tree) :
    t.render = Token.texts labelText (t.tokens label false) := by
  simp [render, write_eq_texts label h]

/-- The same with the texts of the constraints as labels. -/
theorem render_eq_texts_tokens (t : Tree) :
    t.render = Token.texts id (t.tokens constraintText false) :=
  render_eq_texts constraintText (fun _ _ _ => rfl) t

/-- The flag after a tree, whatever was written before it. -/
theorem write_snd (t : Tree) (out : String) (guarded : Bool) :
    (t.write out guarded).2 = (guarded && !t.hasConjunction) := by
  have h : ∀ s c a, id (constraintText s c a) = constraintText s c a := fun _ _ _ => rfl
  rw [write_eq_texts constraintText h]

end Tree

end QueryTree
