/-!
# Texts as bytes

The order of texts that every listing of the library uses: by their bytes in UTF-8, from the first
byte on. Paths are compared name by name in the same way.
-/

namespace QueryTree.Text

/-- The bytes of a text in UTF-8. -/
def bytes (s : String) : List UInt8 := s.toUTF8.data.toList

/-- The text that a list of bytes is in UTF-8, if it is one. -/
def ofBytes? (bs : List UInt8) : Option String := String.fromUTF8? ⟨bs.toArray⟩

/-- `precedes a b`: the bytes of `a` come strictly before the bytes of `b`. -/
def precedes (a b : String) : Bool := decide (bytes a < bytes b)

/-- Lists of names in the order of their first different name; a list comes before its extensions. -/
def namesPrecede : List String → List String → Bool
  | _, [] => false
  | [], _ :: _ => true
  | a :: as, b :: bs => precedes a b || (a == b && namesPrecede as bs)

end QueryTree.Text
