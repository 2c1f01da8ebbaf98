/-!
# White space

The characters with the Unicode property `White_Space`, and the removal of white space at both ends
of a text. A text is taken as its list of characters here; `Text.trim` is the same on strings.
-/

namespace QueryTree.Text

/-- The characters with the Unicode property `White_Space`. -/
def isSpace (c : Char) : Bool :=
  let n := c.toNat
  (9 ≤ n && n ≤ 13) || n == 0x20 || n == 0x85 || n == 0xA0 || n == 0x1680
    || (0x2000 ≤ n && n ≤ 0x200A) || n == 0x2028 || n == 0x2029 || n == 0x202F
    || n == 0x205F || n == 0x3000

/-- A list of characters without the white space at its beginning. -/
def dropLeading (cs : List Char) : List Char := cs.dropWhile isSpace

/-- A list of characters without the white space at its end. -/
def dropTrailing (cs : List Char) : List Char := (cs.reverse.dropWhile isSpace).reverse

/-- A list of characters without the white space at either end. -/
def trimChars (cs : List Char) : List Char := dropTrailing (dropLeading cs)

/-- A text without the white space at either end. -/
def trim (s : String) : String := String.ofList (trimChars s.toList)

end QueryTree.Text
