import QueryTree.Number.Layout
import QueryTree.Text.Quoted
import QueryTree.Yaml.Cursor
import QueryTree.Yaml.Value

/-!
# Errors in YAML texts

Why a text holds no value. A fault of a value knows where the value begins and the way to it through
the mappings and sequences around it; both are named in its message. The wording for a text that is
not well-formed is not made here: it is given wherever a message is asked for.
-/

namespace QueryTree.Yaml

/-- The way from a document to one of its values. -/
inductive Place where
  | root
  | item (parent : Place) (index : Nat)
  | entry (parent : Place) (key : String)
  /-- A value whose key is no plain word. -/
  | unnamed (parent : Place)
  /-- A value that another one stands for. -/
  | aliased (parent : Place)
  deriving Repr, DecidableEq

namespace Place

/-- The text of a place. -/
def text : Place → String
  | root => "."
  | item parent index => parent.text ++ "[" ++ String.ofList (Text.decimal index) ++ "]"
  | entry parent key => before parent parent.text ++ key
  | unnamed parent => before parent parent.text ++ "?"
  | aliased parent => parent.text
where
  /-- What comes before a key. -/
  before : Place → String → String
    | root, _ => ""
    | _, text => text ++ "."

end Place

/-- What is wrong with a value. -/
inductive Defect where
  /-- An integer of more than 64 bits. -/
  | wideInteger (value : Int)
  /-- A text under a tag that asks for something else. -/
  | wrongContent (content expected : String)
  /-- A key that stands twice, as it stands first. -/
  | duplicateKey (key : Value)

/-- Why a text holds no value. -/
inductive Error where
  /-- The text is not well-formed. -/
  | syntaxError
  | defect (place : Place) (mark : Mark) (what : Defect)
  /-- Too many collections in one another. -/
  | tooDeep (mark : Mark)
  /-- Aliases make the value too large. -/
  | tooManyAliases
  | unknownAnchor (mark : Mark)
  /-- There is a second document. -/
  | manyDocuments

namespace Error

/-- The line and the column of a place, unless it is the beginning. -/
def markText (m : Mark) : String :=
  if m.line = 0 ∧ m.column = 0 then ""
  else " at line " ++ String.ofList (Text.decimal (m.line + 1)) ++ " column "
    ++ String.ofList (Text.decimal (m.column + 1))

/-- How a key is named that stands twice in its mapping. -/
def keyText : Value → String
  | .null => "with null key"
  | .bool b => "with key `" ++ (if b then "true" else "false") ++ "`"
  | .int n => "with key " ++ String.ofList (Text.integer n)
  | .float bits =>
    "with key " ++ String.ofList (Number.Layout.documentKey.write .double bits.toNat)
  | .text s => "with key " ++ Text.quoted s
  | _ => "in YAML map"

/-- The width that a message gives an integer. -/
def widthText (n : Int) : String := if n < 0 then "i128" else "u128"

/-- The wording of a defect. -/
def defectText : Defect → String
  | .wideInteger n =>
    "invalid type: integer `" ++ String.ofList (Text.integer n) ++ "` as " ++ widthText n
      ++ ", expected any YAML value"
  | .wrongContent content expected =>
    "invalid value: string " ++ Text.quoted content ++ ", expected " ++ expected
  | .duplicateKey key => "duplicate entry " ++ keyText key

/-- The wording of an error, with the one for a text that is not well-formed. -/
def detail (wording : String) : Error → String
  | syntaxError => wording
  | defect place mark what =>
    let named := if place.text == "." then "" else place.text ++ ": "
    named ++ defectText what ++ markText mark
  | tooDeep mark => "recursion limit exceeded" ++ markText mark
  | tooManyAliases => "repetition limit exceeded"
  | unknownAnchor mark => "unknown anchor" ++ markText mark
  | manyDocuments =>
    "deserializing from YAML containing more than one document is not supported"

/-- The message of an error. -/
def message (wording : String) (e : Error) : String := "Invalid YAML: " ++ e.detail wording

end Error

end QueryTree.Yaml
