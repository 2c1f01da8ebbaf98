import QueryTree.Text.Bytes

/-!
# YAML tags

A tag is a sequence of bytes: an escape in a tag stands for a byte, and the bytes together need not
be a text. A zero byte ends a tag and each of the two parts that it is put together from. A tag that
begins with an exclamation mark is a local one; the name that it gives to a value is a text.
-/

namespace QueryTree.Yaml

/-- A tag, with its handle replaced. -/
structure Tag where
  bytes : List UInt8
  deriving Repr, DecidableEq

namespace Tag

/-- The exclamation mark as a byte. -/
def exclamation : UInt8 := 0x21

/-- The bytes before the first zero byte. -/
def untilZero (bytes : List UInt8) : List UInt8 := bytes.takeWhile (· != 0)

/-- The tag that stands for a kind of value. -/
def ofKind (kind : String) : Tag := ⟨Text.bytes ("tag:yaml.org,2002:" ++ kind)⟩

/-- The tag begins with an exclamation mark. -/
def isLocal (t : Tag) : Bool := t.bytes.head? == some exclamation

/-- A name without the exclamation mark at its beginning, unless it is nothing else. -/
def bareName (name : String) : String :=
  match name.toList with
  | '!' :: c :: rest => String.ofList (c :: rest)
  | _ => name

/-- Names that differ by an exclamation mark at the beginning are the same. -/
def sameName (a b : String) : Bool := bareName a == bareName b

/-- The name that a local tag gives to a value; there is none if the tag is no text. -/
def localName? (t : Tag) : Option String :=
  if t.isLocal then (Text.ofBytes? t.bytes).map bareName else none

end Tag

end QueryTree.Yaml
