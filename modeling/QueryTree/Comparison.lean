import QueryTree.Text.Space

/-!
# Comparisons

The six comparisons of a constraint. Each has a sign, which queries show, and a short name, which
documents may use instead of the sign, in letters of either case.
-/

namespace QueryTree

/-- A comparison of a selector with a literal. -/
inductive Comparison where
  | equals
  | notEquals
  | greaterThan
  | greaterEquals
  | lessThan
  | lessEquals
  deriving Repr, DecidableEq

namespace Comparison

/-- The comparisons in the order in which messages name them. -/
def all : List Comparison :=
  [equals, notEquals, greaterThan, greaterEquals, lessThan, lessEquals]

/-- The sign that queries show. -/
def sign : Comparison → String
  | equals => "=="
  | notEquals => "!="
  | greaterThan => "=gt="
  | greaterEquals => "=ge="
  | lessThan => "=lt="
  | lessEquals => "=le="

/-- The short name. -/
def shortName : Comparison → String
  | equals => "eq"
  | notEquals => "ne"
  | greaterThan => "gt"
  | greaterEquals => "ge"
  | lessThan => "lt"
  | lessEquals => "le"

/-- The comparison with a sign. -/
def ofSign? (s : String) : Option Comparison := all.find? fun c => c.sign == s

/-- Two texts that differ at most in the case of ASCII letters. -/
def sameLetters (a b : String) : Bool := a.toList.map Char.toLower == b.toList.map Char.toLower

/-- The comparison with a short name, in letters of either case. -/
def ofShortName? (s : String) : Option Comparison := all.find? fun c => sameLetters c.shortName s

/-- A text that names no comparison. -/
structure Unknown where
  text : String
  deriving Repr, DecidableEq

/-- The wording of the error for an unknown comparison. -/
def Unknown.message (u : Unknown) : String :=
  "Unknown comparison '" ++ u.text ++ "' (expected " ++ ", ".intercalate (all.map sign) ++ " or "
    ++ ", ".intercalate (all.map shortName) ++ ")"

/-- Reading a sign or a short name, with white space around it. -/
def read (s : String) : Except Unknown Comparison :=
  let word := Text.trim s
  match (ofSign? word).or (ofShortName? word) with
  | some c => .ok c
  | none => .error ⟨word⟩

end Comparison

end QueryTree
