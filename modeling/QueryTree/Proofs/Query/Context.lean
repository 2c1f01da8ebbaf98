import QueryTree.Proofs.Query.Token

/-!
# Trees with a hole

What a tree's query shows around one of its subtrees. The tree without the subtree is a `Context`;
its tokens stand around those of the subtree (`Context.tokens_fill`), and of the subtree they depend
on nothing but whether it contains a conjunction. The subtree finds the flag as the context has left
it, but only a disjunction looks at it. So a conjunction can be exchanged for another one, and a
constraint for another one, with nothing else changed in the query (`Context.exists_encloses`).
-/

namespace QueryTree

open QueryTree.Tree

/-- A tree with a hole in the place of one of its subtrees. -/
inductive Context where
  | hole
  | andLeft (context : Context) (right : Tree)
  | andRight (left : Tree) (context : Context)
  | orLeft (context : Context) (right : Tree)
  | orRight (left : Tree) (context : Context)

namespace Context

variable {α : Type} (label : String → Comparison → Literal → α)

/-- The tree with a subtree in the hole. -/
def fill : Context → Tree → Tree
  | hole, t => t
  | andLeft c right, t => .and (c.fill t) right
  | andRight left c, t => .and left (c.fill t)
  | orLeft c right, t => .or (c.fill t) right
  | orRight left c, t => .or left (c.fill t)

/-- The context has a conjunction, whatever is in the hole. -/
def hasConjunction : Context → Bool
  | hole => false
  | andLeft _ _ => true
  | andRight _ _ => true
  | orLeft c right => c.hasConjunction || right.hasConjunction
  | orRight left c => left.hasConjunction || c.hasConjunction

/-- The flag as the hole finds it, if the context is written when it is `guarded`. -/
def flag : Context → Bool → Bool
  | hole, guarded => guarded
  | andLeft c _, _ => c.flag true
  | andRight left c, _ => c.flag (!left.hasConjunction)
  | orLeft c _, guarded => c.flag guarded
  | orRight left c, guarded => c.flag (guarded && !left.hasConjunction)

/-- A parenthesis before a disjunction that finds the flag raised. -/
def openings (guarded : Bool) : List (Token α) := if guarded then [.opening] else []

/-- A parenthesis after a disjunction that has found the flag raised. -/
def closings (guarded : Bool) : List (Token α) := if guarded then [.closing] else []

/-- The tokens before the hole. -/
def before : Context → Bool → List (Token α)
  | hole, _ => []
  | andLeft c _, _ => c.before true
  | andRight left c, _ => left.tokens label true ++ .sign .and :: c.before (!left.hasConjunction)
  | orLeft c _, guarded => openings guarded ++ c.before guarded
  | orRight left c, guarded =>
    openings guarded ++ (left.tokens label guarded ++
      .sign .or :: c.before (guarded && !left.hasConjunction))

/-- The tokens behind the hole, if there is a conjunction in it (`true`) or none (`false`). -/
def behind : Context → Bool → Bool → List (Token α)
  | hole, _, _ => []
  | andLeft c right, _, conjunction =>
    c.behind true conjunction ++
      .sign .and :: right.tokens label (!(c.hasConjunction || conjunction))
  | andRight left c, _, conjunction => c.behind (!left.hasConjunction) conjunction
  | orLeft c right, guarded, conjunction =>
    c.behind guarded conjunction ++
      .sign .or :: (right.tokens label (guarded && !(c.hasConjunction || conjunction)) ++
        closings guarded)
  | orRight left c, guarded, conjunction =>
    c.behind (guarded && !left.hasConjunction) conjunction ++ closings guarded

theorem hasConjunction_fill (c : Context) (t : Tree) :
    (c.fill t).hasConjunction = (c.hasConjunction || t.hasConjunction) := by
  induction c with
  | hole => rfl
  | andLeft c right => rfl
  | andRight left c => rfl
  | orLeft c right ih =>
    simp only [fill, hasConjunction, Tree.hasConjunction, ih, Bool.or_assoc,
      Bool.or_comm t.hasConjunction]
  | orRight left c ih => simp only [fill, hasConjunction, Tree.hasConjunction, ih, Bool.or_assoc]

/-- A disjunction has a parenthesis on each side, or none. -/
theorem tokens_or_eq (l r : Tree) (guarded : Bool) :
    (Tree.or l r).tokens label guarded =
      openings guarded ++ (l.tokens label guarded ++
        .sign .or :: (r.tokens label (guarded && !l.hasConjunction) ++ closings guarded)) := by
  cases guarded <;> simp [tokens_or, openings, closings]

/-- **The query around a hole**: the tokens of a context stand around those of what is in its hole,
which finds the flag as they leave it. -/
theorem tokens_fill (c : Context) (t : Tree) (guarded : Bool) :
    (c.fill t).tokens label guarded =
      c.before label guarded ++ (t.tokens label (c.flag guarded) ++
        c.behind label guarded t.hasConjunction) := by
  induction c generalizing guarded with
  | hole => simp [fill, before, flag, behind]
  | andLeft c right ih =>
    simp only [fill, tokens_and, ih, hasConjunction_fill, before, flag, behind, List.append_assoc]
  | andRight left c ih =>
    simp only [fill, tokens_and, ih, before, flag, behind, List.append_assoc, List.cons_append]
  | orLeft c right ih =>
    simp only [fill, tokens_or_eq, ih, hasConjunction_fill, before, flag, behind,
      List.append_assoc]
  | orRight left c ih =>
    simp only [fill, tokens_or_eq, ih, before, flag, behind, List.append_assoc, List.cons_append]

/-! ### Exchanging what is in the hole -/

/-- The query of a filled context is that of the filling with some tokens before it and behind it.
-/
structure Encloses (c : Context) (pre post : List (Token String)) (t : Tree) : Prop where
  tokens : (c.fill t).tokens constraintText false = pre ++ t.tokens constraintText false ++ post
  render : (c.fill t).render = Token.texts id pre ++ t.render ++ Token.texts id post

/-- A filling that does not look at the flag is written as it would be alone. -/
theorem encloses_of_tokens (c : Context) {t : Tree}
    (h : t.tokens constraintText (c.flag false) = t.tokens constraintText false) :
    c.Encloses (c.before constraintText false)
      (c.behind constraintText false t.hasConjunction) t := by
  have htokens : (c.fill t).tokens constraintText false = c.before constraintText false ++
      t.tokens constraintText false ++ c.behind constraintText false t.hasConjunction := by
    rw [tokens_fill, h, List.append_assoc]
  refine ⟨htokens, ?_⟩
  rw [render_eq_texts_tokens, render_eq_texts_tokens t, htokens, Token.texts_append,
    Token.texts_append]

/-- **What stands around a hole**: before it the same tokens for all conjunctions and all
constraints, behind it the same for all conjunctions and the same for all constraints. -/
theorem exists_encloses (c : Context) :
    ∃ pre post post' : List (Token String),
      (∀ l r, c.Encloses pre post (.and l r)) ∧
        ∀ s d a, c.Encloses pre post' (.constraint s d a) :=
  ⟨c.before constraintText false, c.behind constraintText false true,
    c.behind constraintText false false,
    fun l r => c.encloses_of_tokens (t := .and l r) rfl,
    fun s d a => c.encloses_of_tokens (t := .constraint s d a) rfl⟩

-- a constraint in the place of a conjunction leaves the flag raised for what follows
example :
    let x := constraint "x" .equals (.bool true)
    (Context.andLeft .hole (x.or x)).behind (fun s _ _ => s) false true =
        [.sign .and, .constraint "x", .sign .or, .constraint "x"] ∧
      (Context.andLeft .hole (x.or x)).behind (fun s _ _ => s) false false =
        [.sign .and, .opening, .constraint "x", .sign .or, .constraint "x", .closing] := by
  decide

end Context

end QueryTree
