import QueryTree.Tree
import QueryTree.Literal.Encoding

/-!
# Trees as queries

The query text of a tree: its constraints from left to right with `,` for a conjunction and `;` for
a disjunction, and parentheses around some disjunctions. Whether a disjunction is parenthesized is
decided by a flag that goes along with the text. A conjunction raises it for its left tree; whatever
has been written passes it on, and a finished conjunction leaves it lowered. So a disjunction after
a nested conjunction stands bare: `And(And(a, b), Or(c, d))` is written `a,b,c;d`.
-/

namespace QueryTree

namespace Tree

/-- The query text of a constraint. -/
def constraintText (selector : String) (comparison : Comparison) (argument : Literal) : String :=
  selector ++ comparison.sign ++ argument.encode

/-- `t.write out guarded` is `out` with the text of `t` after it, and the flag for what follows; a
disjunction that finds the flag raised is parenthesized. -/
def write : Tree → String → Bool → String × Bool
  | and left right, out, _ =>
    let (out, afterLeft) := left.write out true
    let (out, _) := right.write (out ++ Connective.and.sign) afterLeft
    (out, false)
  | or left right, out, guarded =>
    let out := if guarded then out ++ "(" else out
    let (out, afterLeft) := left.write out guarded
    let (out, afterRight) := right.write (out ++ Connective.or.sign) afterLeft
    (if guarded then out ++ ")" else out, afterRight)
  | constraint selector comparison argument, out, guarded =>
    (out ++ constraintText selector comparison argument, guarded)

/-- The query text of a tree. -/
def render (t : Tree) : String := (t.write "" false).1

instance : ToString Tree := ⟨render⟩

end Tree

end QueryTree
