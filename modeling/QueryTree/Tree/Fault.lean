import QueryTree.Calendar.Reading
import QueryTree.Number.Layout
import QueryTree.Text.Quoted
import QueryTree.Tree
import QueryTree.Yaml.Error

/-!
# Faults in tree documents

What keeps a value of a document from being a tree, and where. The address of a fault is the way
through the connectives to the node at fault, followed by the part of the node.
-/

namespace QueryTree

/-- One of the two children of a node. -/
inductive Side where
  | left
  | right
  deriving Repr, DecidableEq

/-- A step from a node to one of its children. -/
structure ChildStep where
  connective : Connective
  side : Side
  deriving Repr, DecidableEq

/-- The part of a node that is at fault. -/
inductive NodePart where
  /-- The node itself. -/
  | whole
  /-- The list of its children. -/
  | children (connective : Connective)
  | argument
  /-- The argument under the name of its kind. -/
  | typedArgument (kind : String)
  deriving Repr, DecidableEq

/-- The keys of a constraint. -/
inductive Field where
  | selector
  | comparison
  | argument
  deriving Repr, DecidableEq

namespace Field

/-- The fields in the order in which messages name them. -/
def all : List Field := [selector, comparison, argument]

/-- The key of a field. -/
def key : Field → String
  | selector => "selector"
  | comparison => "comparison"
  | argument => "argument"

/-- The field with a key. -/
def ofKey? (s : String) : Option Field := all.find? fun f => f.key == s

end Field

/-- The key of a connective. -/
def Connective.key : Connective → String
  | .and => "and"
  | .or => "or"

/-- What a key or a value was expected to be. -/
inductive Expected where
  | fieldName
  | text
  deriving Repr, DecidableEq

/-- What is wrong with a node. -/
inductive FaultCause where
  | notMapping
  /-- A connective with other keys beside it. -/
  | notOnlyKey (connective : Connective)
  | notTwoNodes
  | wrongType (found : Yaml.Value) (expected : Expected)
  | unknownField (key : String)
  | duplicateField (field : Field)
  /-- A key that stands twice in a mapping inside an argument. -/
  | duplicateKey (key : Yaml.Value)
  | missingField (field : Field)
  | emptySelector
  | unknownComparison (word : Comparison.Unknown)
  /-- An integer beyond 64 bits with sign. -/
  | tooLarge (value : Int)
  | notArgument
  | kindNotText
  | unknownKind (kind : String)
  | notBoolean
  | notInteger
  | notNumber
  | notText
  | badDate (text : String) (error : Calendar.ReadError)
  | badDateTime (text : String) (error : Calendar.ReadError)

/-- A fault with its address. -/
structure Fault where
  steps : List ChildStep
  part : NodePart
  cause : FaultCause

namespace Fault

/-- A fault of a node itself. -/
def here (part : NodePart) (cause : FaultCause) : Fault := ⟨[], part, cause⟩

/-- A fault of a child, as seen from its parent. -/
def below (step : ChildStep) (f : Fault) : Fault := { f with steps := step :: f.steps }

/-- A step in an address. -/
def stepText (s : ChildStep) : String :=
  "." ++ s.connective.key ++ (match s.side with | .left => "[0]" | .right => "[1]")

/-- A part in an address. -/
def partText : NodePart → String
  | .whole => ""
  | .children c => "." ++ c.key
  | .argument => ".argument"
  | .typedArgument kind => ".argument." ++ kind

/-- The address of a fault. -/
def address (f : Fault) : String :=
  "root" ++ String.join (f.steps.map stepText) ++ partText f.part

/-- A text between back quotes. -/
def backQuoted (s : String) : String := "`" ++ s ++ "`"

/-- How a value of the wrong type is named. -/
def foundText : Yaml.Value → String
  | .null => "unit value"
  | .bool b => "boolean " ++ backQuoted (if b then "true" else "false")
  | .int n => "integer " ++ backQuoted (String.ofList (Text.integer n))
  | .float bits =>
    "floating point " ++ backQuoted (String.ofList (Number.Layout.message.write .double bits.toNat))
  | .text s => "string " ++ Text.quoted s
  | .sequence _ => "sequence"
  | .mapping _ => "map"
  | .tagged _ v => foundText v

/-- How an expected thing is named. -/
def expectedText : Expected → String
  | .fieldName => "field identifier"
  | .text => "a string"

/-- The wording of a cause. -/
def causeText : FaultCause → String
  | .notMapping => "expected a mapping"
  | .notOnlyKey c => "'" ++ c.key ++ "' must be the only key of its node"
  | .notTwoNodes => "expected a sequence of exactly two nodes"
  | .wrongType found expected =>
    "invalid type: " ++ foundText found ++ ", expected " ++ expectedText expected
  | .unknownField key =>
    "unknown field " ++ backQuoted key ++ ", expected one of "
      ++ ", ".intercalate (Field.all.map fun f => backQuoted f.key)
  | .duplicateField f => "duplicate field " ++ backQuoted f.key
  | .duplicateKey key => "duplicate entry " ++ Yaml.Error.keyText key
  | .missingField f => "missing field " ++ backQuoted f.key
  | .emptySelector => "selector must not be empty"
  | .unknownComparison word => word.message
  | .tooLarge n => String.ofList (Text.integer n) ++ " does not fit a 64-bit integer"
  | .notArgument => "expected a scalar or a single-key mapping naming the argument kind"
  | .kindNotText => "argument kind must be a string"
  | .unknownKind kind => "unknown argument kind '" ++ kind ++ "'"
  | .notBoolean => "expected true or false"
  | .notInteger => "expected an integer in range"
  | .notNumber => "expected a number"
  | .notText => "expected a string"
  | .badDate s e => "'" ++ s ++ "' is not a YYYY-MM-DD date: " ++ e.message
  | .badDateTime s e => "'" ++ s ++ "' is not an RFC 3339 date-time: " ++ e.message

/-- The wording of a fault without its address. -/
def detail (f : Fault) : String := causeText f.cause

/-- The message of a fault. -/
def message (f : Fault) : String := "Invalid tree at " ++ f.address ++ ": " ++ f.detail

end Fault

end QueryTree
