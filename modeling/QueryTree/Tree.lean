import QueryTree.Comparison
import QueryTree.Literal

/-!
# Expression trees

Constraints joined by conjunctions and disjunctions of two trees each.
-/

namespace QueryTree

/-- The two ways to join trees. -/
inductive Connective where
  | and
  | or
  deriving Repr, DecidableEq

namespace Connective

/-- The sign between two joined trees in a query. -/
def sign : Connective → String
  | and => ","
  | or => ";"

end Connective

/-- An expression tree. -/
inductive Tree where
  | and (left right : Tree)
  | or (left right : Tree)
  | constraint (selector : String) (comparison : Comparison) (argument : Literal)
  deriving DecidableEq

namespace Tree

/-- Two trees joined by a connective. -/
def join : Connective → Tree → Tree → Tree
  | .and => and
  | .or => or

/-- Equality of trees: of shape, selectors and comparisons, and of literals by their own equality. -/
def same : Tree → Tree → Bool
  | and a b, and c d => a.same c && b.same d
  | or a b, or c d => a.same c && b.same d
  | constraint s c a, constraint t d b => s == t && c == d && a.same b
  | _, _ => false

/-- The selectors of the constraints, from left to right. -/
def selectors : Tree → List String
  | and left right => left.selectors ++ right.selectors
  | or left right => left.selectors ++ right.selectors
  | constraint selector _ _ => [selector]

end Tree

end QueryTree
