import QueryTree.Inventory
import QueryTree.Tree.Rendering

/-!
# Calls in one another

A recursive function on a bounded stack (`onStack`): each call takes a frame while it waits for the
calls that it makes, and there is no outcome if the frames run out. Writing a tree and counting its
selectors take one frame more than the tree is high, and no less (`Tree.onStack_writeBody`,
`Tree.onStack_countBody`).
-/

namespace QueryTree

/-- The recursive function with this body on a stack of so many frames. The body is one call, in
which the first argument stands for the calls that it makes; it is `none` if one of them is. -/
def onStack {α β : Type} (body : (α → Option β) → α → Option β) : Nat → α → Option β
  | 0, _ => none
  | frames + 1, a => body (onStack body frames) a

theorem bind_ite_none {α β : Type} {p : Prop} [Decidable p] (a : α) (next : α → Option β) :
    ((if p then some a else none) >>= next) = if p then next a else none := by
  split <;> rfl

theorem ite_ite_none {β : Type} {p q : Prop} [Decidable p] [Decidable q] (x : Option β) :
    (if p then if q then x else none else none) = if p ∧ q then x else none := by
  by_cases hp : p <;> by_cases hq : q <;> simp [hp, hq]

namespace Tree

/-- The number of connectives that lie in one another at the deepest place. -/
def height : Tree → Nat
  | and left right => max left.height right.height + 1
  | or left right => max left.height right.height + 1
  | constraint _ _ _ => 0

theorem height_join (c : Connective) (left right : Tree) :
    (join c left right).height = max left.height right.height + 1 := by
  cases c <;> rfl

theorem max_add_one_lt_iff {m n frames : Nat} :
    max m n + 1 < frames + 1 ↔ m < frames ∧ n < frames := by
  rw [Nat.add_lt_add_iff_right, Nat.max_lt]

/-- One call of `write`. -/
def writeBody (self : Tree × String × Bool → Option (String × Bool)) :
    Tree × String × Bool → Option (String × Bool)
  | (and left right, out, _) => do
    let (out, afterLeft) ← self (left, out, true)
    let (out, _) ← self (right, out ++ Connective.and.sign, afterLeft)
    some (out, false)
  | (or left right, out, guarded) => do
    let (out, afterLeft) ← self (left, if guarded then out ++ "(" else out, guarded)
    let (out, afterRight) ← self (right, out ++ Connective.or.sign, afterLeft)
    some (if guarded then out ++ ")" else out, afterRight)
  | (constraint selector comparison argument, out, guarded) =>
    some (out ++ constraintText selector comparison argument, guarded)

/-- **Writing a tree** takes one frame more than the tree is high. -/
theorem onStack_writeBody (t : Tree) (frames : Nat) (out : String) (guarded : Bool) :
    onStack writeBody frames (t, out, guarded) =
      if t.height < frames then some (t.write out guarded) else none := by
  induction t generalizing frames out guarded with
  | and l r ihl ihr =>
    cases frames with
    | zero => rfl
    | succ frames =>
      simp only [onStack, writeBody, ihl, ihr, bind_ite_none, ite_ite_none, height,
        max_add_one_lt_iff]
      rfl
  | or l r ihl ihr =>
    cases frames with
    | zero => rfl
    | succ frames =>
      simp only [onStack, writeBody, ihl, ihr, bind_ite_none, ite_ite_none, height,
        max_add_one_lt_iff]
      rfl
  | constraint s c a =>
    cases frames with
    | zero => rfl
    | succ frames => exact (if_pos (Nat.succ_pos frames)).symm

/-- One call of the counting of selectors: an inventory with the selectors of a tree added. -/
def countBody (self : Tree × Inventory → Option Inventory) : Tree × Inventory → Option Inventory
  | (and left right, inventory) => do self (right, ← self (left, inventory))
  | (or left right, inventory) => do self (right, ← self (left, inventory))
  | (constraint selector _ _, inventory) => some (inventory.add selector)

/-- **Counting the selectors of a tree** takes one frame more than the tree is high. -/
theorem onStack_countBody (t : Tree) (frames : Nat) (inventory : Inventory) :
    onStack countBody frames (t, inventory) =
      if t.height < frames then
        some (t.selectors.foldl (fun inventory selector => inventory.add selector) inventory)
      else none := by
  induction t generalizing frames inventory with
  | and l r ihl ihr =>
    cases frames with
    | zero => rfl
    | succ frames =>
      simp only [onStack, countBody, ihl, ihr, bind_ite_none, ite_ite_none, height,
        max_add_one_lt_iff, selectors, List.foldl_append]
  | or l r ihl ihr =>
    cases frames with
    | zero => rfl
    | succ frames =>
      simp only [onStack, countBody, ihl, ihr, bind_ite_none, ite_ite_none, height,
        max_add_one_lt_iff, selectors, List.foldl_append]
  | constraint s c a =>
    cases frames with
    | zero => rfl
    | succ frames => exact (if_pos (Nat.succ_pos frames)).symm

end Tree

end QueryTree
