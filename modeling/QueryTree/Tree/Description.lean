import QueryTree.Tree
import QueryTree.Calendar.Writing
import QueryTree.Number.Layout
import QueryTree.Text.Quoted

/-!
# Structural descriptions

A tree written with the names of its parts, for a reader who wants to see how it is built. Texts are
quoted, floating point numbers shortest, and date-times exact.
-/

namespace QueryTree

namespace Comparison

/-- The name of a comparison in a description. -/
def describe : Comparison → String
  | equals => "Equals"
  | notEquals => "NotEquals"
  | greaterThan => "GreaterThan"
  | greaterEquals => "GreaterEquals"
  | lessThan => "LessThan"
  | lessEquals => "LessEquals"

end Comparison

/-- A named part with its content in parentheses. -/
def namedPart (name content : String) : String := name ++ "(" ++ content ++ ")"

namespace Literal

/-- The description of a literal. -/
def describe : Literal → String
  | bool b => namedPart "Bool" (if b then "true" else "false")
  | byte n => namedPart "Byte" (String.ofList (Text.integer n.toInt))
  | short n => namedPart "Short" (String.ofList (Text.integer n.toInt))
  | int n => namedPart "Int" (String.ofList (Text.integer n.toInt))
  | long n => namedPart "Long" (String.ofList (Text.integer n.toInt))
  | float b => namedPart "Float" (String.ofList (Number.Layout.structural.write .single b.toNat))
  | double b => namedPart "Double" (String.ofList (Number.Layout.structural.write .double b.toNat))
  | calendar dt => namedPart "Calendar" (String.ofList dt.exactChars)
  | date d => namedPart "LocalDate" (String.ofList d.chars)
  | instant dt => namedPart "Instant" (String.ofList dt.exactChars)
  | name s => namedPart "Enum" (Text.quoted s)
  | text s => namedPart "Text" (Text.quoted s)
  | opaqueForm s => namedPart "Other" (namedPart "Opaque" (Text.quoted s))

end Literal

namespace Tree

/-- The description of a tree. -/
def describe : Tree → String
  | and left right => namedPart "And" (left.describe ++ ", " ++ right.describe)
  | or left right => namedPart "Or" (left.describe ++ ", " ++ right.describe)
  | constraint selector comparison argument =>
    "Constraint \x7b selector: " ++ Text.quoted selector ++ ", comparison: " ++ comparison.describe
      ++ ", argument: " ++ argument.describe ++ " \x7d"

end Tree

end QueryTree
