import QueryTree.Yaml.Tag
import QueryTree.Yaml.Token
import QueryTree.Yaml.Token.Scalar

/-!
# Tags, anchors and directives in a YAML text

The small tokens: `%` directives, `&` anchors and `*` aliases, and `!` tags in their three forms
`!<uri>`, `!suffix` and `!handle!suffix`. Every reader gives `none` for a text that is not
well-formed.
-/

namespace QueryTree.Yaml

/-! ### Tags -/

/-- The characters of a tag; the last three only between `<` and `>`. -/
def isTagChar (verbatim : Bool) (x : Char) : Bool :=
  isWordChar x || ";/?:@&=+$.%!~*'()".toList.contains x
    || (verbatim && (x == ',' || x == '[' || x == ']'))

/-- The byte that a percent sign and two hexadecimal digits stand for. -/
def escapedByte? (c : Cursor) : Option (Nat × Cursor) :=
  match c.rest with
  | '%' :: a :: b :: _ => (Text.value? 16 [a, b]).map fun n => (n, c.advanceBy 3)
  | _ => none

/-- The number of bytes of a character by its first byte. -/
def byteCount? (n : Nat) : Option Nat :=
  if n < 0x80 then some 1
  else if 0xC0 ≤ n ∧ n < 0xE0 then some 2
  else if 0xE0 ≤ n ∧ n < 0xF0 then some 3
  else if 0xF0 ≤ n ∧ n < 0xF8 then some 4
  else none

/-- The later bytes of an escaped character. -/
def escapedTail? : Nat → List UInt8 → Cursor → Option (List UInt8 × Cursor)
  | 0, bytes, c => some (bytes, c)
  | n + 1, bytes, c => do
    let (byte, c) ← escapedByte? c
    if 0x80 ≤ byte ∧ byte < 0xC0 then escapedTail? n (bytes ++ [UInt8.ofNat byte]) c else none

/-- The bytes of a character written by escapes. Only their number and the range of each is looked at,
so they may stand for no character at all. -/
def escapedChar? (c : Cursor) : Option (List UInt8 × Cursor) := do
  let (byte, c) ← escapedByte? c
  let n ← byteCount? byte
  escapedTail? (n - 1) [UInt8.ofNat byte] c

/-- The bytes of a tag, with its escapes replaced. -/
def tagBytes (verbatim : Bool) : Nat → List UInt8 → Cursor → Option (List UInt8 × Cursor)
  | 0, _, _ => none
  | limit + 1, bytes, c =>
    match c.peek? with
    | none => some (bytes, c)
    | some x =>
      if x == '%' then do
        let (more, c) ← escapedChar? c
        tagBytes verbatim limit (bytes ++ more) c
      else if isTagChar verbatim x then
        tagBytes verbatim limit (bytes ++ [UInt8.ofNat x.toNat]) c.advance
      else some (bytes, c)

/-- A tag of which something must be written. -/
def tagUri (verbatim : Bool) (limit : Nat) (c : Cursor) : Option (List UInt8 × Cursor) := do
  let (bytes, c) ← tagBytes verbatim limit [] c
  if bytes.isEmpty then none else some (Tag.untilZero bytes, c)

/-- The `!`, the word after it, and the `!` that ends a handle; the flag says that there is one. -/
def tagHandle (c : Cursor) : Option (String × Bool × Cursor) :=
  if !c.next (· == '!') then none
  else
    let (word, c) := c.advance.takeWhile isWordChar
    if c.next (· == '!') then some ("!" ++ String.ofList word ++ "!", true, c.advance)
    else some ("!" ++ String.ofList word, false, c)

/-- The handle and the suffix of a tag. A lone `!` is a suffix without a handle. -/
def tagParts (limit : Nat) (c : Cursor) : Option (String × List UInt8 × Cursor) :=
  if c.peekAt? 1 == some '<' then do
    let (uri, c) ← tagUri true limit (c.advanceBy 2)
    if c.next (· == '>') then some ("", uri, c.advance) else none
  else do
    let (handle, closed, after) ← tagHandle c
    if closed then
      let (suffix, c) ← tagUri false limit after
      some (handle, suffix, c)
    else
      let (bytes, c) ← tagBytes false limit ((Text.bytes handle).drop 1) after
      let suffix := Tag.untilZero bytes
      some (if suffix.isEmpty then ("", [Tag.exclamation], c) else ("!", suffix, c))

/-- A tag, which a space or, in a flow collection, a comma must follow. -/
def tagToken (flow : Bool) (limit : Nat) (c : Cursor) : Option (TokenKind × Cursor) := do
  let (handle, suffix, c) ← tagParts limit c
  if (flow && c.next (· == ',')) || c.spaceAt 0 then some (.tag handle suffix, c) else none

/-! ### Anchors -/

/-- The characters that may follow the name of an anchor. -/
def endsAnchor (c : Cursor) : Bool := c.spaceAt 0 || c.next ("?:,]\x7d%@`".toList.contains ·)

/-- An anchor or an alias, at its `&` or `*`. -/
def anchorName (c : Cursor) : Option (String × Cursor) :=
  let (word, c) := c.advance.takeWhile isWordChar
  if !word.isEmpty && endsAnchor c then some (String.ofList word, c) else none

/-! ### Directives -/

/-- A part of a version number, of at most nine digits. -/
def versionNumber (c : Cursor) : Option (Nat × Cursor) :=
  let (digits, c) := c.takeWhile Char.isDigit
  if digits.isEmpty || 9 < digits.length then none else some (Text.decimalValue digits, c)

/-- The value of a version directive. -/
def versionDirective (c : Cursor) : Option (TokenKind × Cursor) := do
  let (major, c) ← versionNumber (c.skipWhile isBlank)
  if c.next (· == '.') then
    let (minor, c) ← versionNumber c.advance
    some (.versionDirective major minor, c)
  else none

/-- The value of a tag directive. -/
def tagDirective (limit : Nat) (c : Cursor) : Option (TokenKind × Cursor) := do
  let (handle, closed, c) ← tagHandle (c.skipWhile isBlank)
  if (closed || handle == "!") && c.next isBlank then
    let (expansion, c) ← tagUri true limit (c.skipWhile isBlank)
    if c.spaceAt 0 then some (.tagDirective handle expansion, c) else none
  else none

/-- A directive, at its percent sign, and the cursor past its line. -/
def directive (limit : Nat) (c : Cursor) : Option (TokenKind × Cursor × Cursor) := do
  let (name, c) := c.advance.takeWhile isWordChar
  if !c.spaceAt 0 then none
  else
    let (kind, c) ←
      if String.ofList name == "YAML" then versionDirective c
      else if String.ofList name == "TAG" then tagDirective limit c
      else none
    let line := (c.skipWhile isBlank).skipComment
    if line.lineEnds then some (kind, c, line.skipBreak) else none

end QueryTree.Yaml
