import QueryTree.Tree
import QueryTree.Text.Bytes
import QueryTree.Text.Digits

/-!
# Inventories of selectors

Which selectors some trees use, and how often. An inventory lists each selector once, with the
number of constraints that use it. It is shown in one of two orders: the names by their bytes, or
the entries with the most used ones first.
-/

namespace QueryTree

/-- Selectors with the number of their uses. -/
abbrev Inventory := List (String × Nat)

namespace Inventory

/-- One more use of a selector. -/
def add (selector : String) : Inventory → Inventory
  | [] => [(selector, 1)]
  | (s, n) :: rest => if s = selector then (s, n + 1) :: rest else (s, n) :: add selector rest

/-- The inventory of a list of selectors, each written as often as it is used. -/
def ofSelectors (selectors : List String) : Inventory :=
  selectors.foldl (fun inventory selector => add selector inventory) []

/-- The inventory of some trees. -/
def ofTrees (trees : List Tree) : Inventory := ofSelectors (trees.flatMap Tree.selectors)

/-- The names in the order of their bytes. -/
def names (inventory : Inventory) : List String :=
  (inventory.map Prod.fst).mergeSort fun a b => !Text.precedes b a

/-- The order of the counted listing: more uses first, then by the names' bytes. -/
def usedMore (a b : String × Nat) : Bool :=
  b.2 < a.2 || (a.2 == b.2 && !Text.precedes b.1 a.1)

/-- The entries with the most used ones first. -/
def byUse (inventory : Inventory) : Inventory := inventory.mergeSort usedMore

/-- A line of the counted listing. -/
def countedLine (entry : String × Nat) : String :=
  entry.1 ++ ": " ++ String.ofList (Text.decimal entry.2)

/-- The lines of the listing, with counts or without. -/
def lines (inventory : Inventory) (counted : Bool) : List String :=
  if counted then inventory.byUse.map countedLine else inventory.names

end Inventory

end QueryTree
