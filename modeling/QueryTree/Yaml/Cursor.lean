/-!
# Reading a YAML text

A cursor is the rest of a text together with the place where it begins. Places count the bytes of the
text in UTF-8, its lines, and the characters of a line, each from zero; a pair of carriage return and
line feed is one line break.
-/

namespace QueryTree.Yaml

/-- A place in a text. -/
structure Mark where
  /-- The number of bytes before it. -/
  offset : Nat
  line : Nat
  /-- The number of characters before it in its line. -/
  column : Nat
  deriving Repr, DecidableEq

/-- The beginning of a text. -/
def Mark.start : Mark := ⟨0, 0, 0⟩

/-- The characters that a YAML text may hold. -/
def isAllowed (c : Char) : Bool :=
  let n := c.toNat
  n == 0x09 || n == 0x0A || n == 0x0D || (0x20 ≤ n && n ≤ 0x7E) || n == 0x85
    || (0xA0 ≤ n && n ≤ 0xD7FF) || (0xE000 ≤ n && n ≤ 0xFFFD) || 0x10000 ≤ n

/-- How many bytes of a text are read at a time. -/
def blockSize : Nat := 16384

/-- The number of bytes before the first block with a character that a text may not hold. Given are
the numbers of bytes before the block that is being read and before the characters that are left. A
block ends before the first character that is not all in it. -/
def refusedFrom? (start offset : Nat) : List Char → Option Nat
  | [] => none
  | c :: cs =>
    let next := offset + c.utf8Size
    let start := if start + blockSize < next then offset else start
    if isAllowed c then refusedFrom? start next cs else some start

/-- The byte order mark. -/
def byteOrderMark : Char := '\uFEFF'

/-- A character that breaks a line. -/
def isBreak (c : Char) : Bool :=
  c == '\r' || c == '\n' || c == '\u0085' || c == '\u2028' || c == '\u2029'

/-- A space or a tab. -/
def isBlank (c : Char) : Bool := c == ' ' || c == '\t'

/-- A character of a directive's name, an anchor or a tag handle. -/
def isWordChar (c : Char) : Bool := c.isAlphanum || c == '_' || c == '-'

/-- The rest of a text and its place. -/
structure Cursor where
  rest : List Char
  mark : Mark

namespace Cursor

/-- The next character. -/
def peek? (c : Cursor) : Option Char := c.rest.head?

/-- The character after `n` others. -/
def peekAt? (c : Cursor) (n : Nat) : Option Char := (c.rest.drop n).head?

/-- The text has ended. -/
def atEnd (c : Cursor) : Bool := c.rest.isEmpty

/-- The next character exists and satisfies `p`. -/
def next (c : Cursor) (p : Char → Bool) : Bool := c.peek?.any p

/-- The character after `n` others is a space, a tab, a line break or the end. -/
def spaceAt (c : Cursor) (n : Nat) : Bool :=
  match c.peekAt? n with
  | none => true
  | some x => isBlank x || isBreak x

/-- The line ends here. -/
def lineEnds (c : Cursor) : Bool :=
  match c.peek? with
  | none => true
  | some x => isBreak x

/-- The number of bytes of the next `n` characters. -/
def byteCount (c : Cursor) (n : Nat) : Nat := (String.ofList (c.rest.take n)).utf8ByteSize

/-- Past one character of a line. -/
def advance (c : Cursor) : Cursor :=
  match c.rest with
  | [] => c
  | x :: rest => ⟨rest, ⟨c.mark.offset + x.utf8Size, c.mark.line, c.mark.column + 1⟩⟩

/-- Past `n` characters of a line. -/
def advanceBy (c : Cursor) (n : Nat) : Cursor :=
  ⟨c.rest.drop n, ⟨c.mark.offset + c.byteCount n, c.mark.line, c.mark.column + n⟩⟩

/-- The characters of the line that satisfy `p`, and the cursor past them. -/
def takeWhile (c : Cursor) (p : Char → Bool) : List Char × Cursor :=
  let run := c.rest.takeWhile p
  (run, c.advanceBy run.length)

/-- Past the characters of the line that satisfy `p`. -/
def skipWhile (c : Cursor) (p : Char → Bool) : Cursor := (c.takeWhile p).2

/-- At the beginning of the next line, `n` characters on. -/
def newLine (c : Cursor) (n : Nat) : Cursor :=
  ⟨c.rest.drop n, ⟨c.mark.offset + c.byteCount n, c.mark.line + 1, 0⟩⟩

/-- A line break as a scalar holds it, and the cursor past it. The two Unicode separators are kept,
every other break is a line feed. -/
def takeBreak (c : Cursor) : String × Cursor :=
  match c.rest with
  | '\r' :: '\n' :: _ => ("\n", c.newLine 2)
  | '\u2028' :: _ => ("\u2028", c.newLine 1)
  | '\u2029' :: _ => ("\u2029", c.newLine 1)
  | x :: _ => if isBreak x then ("\n", c.newLine 1) else ("", c)
  | [] => ("", c)

/-- Past a line break, if there is one. -/
def skipBreak (c : Cursor) : Cursor := c.takeBreak.2

/-- Past a comment up to the end of its line, if there is one. -/
def skipComment (c : Cursor) : Cursor :=
  if c.next (· == '#') then c.skipWhile (!isBreak ·) else c

/-- The line begins with three times `x` and then a space or the end: a document indicator. -/
def atIndicator (c : Cursor) (x : Char) : Bool :=
  c.mark.column == 0 && c.rest.take 3 == [x, x, x] && c.spaceAt 3

/-- The line begins with a document indicator of either kind. -/
def atDocumentIndicator (c : Cursor) : Bool := c.atIndicator '-' || c.atIndicator '.'

end Cursor

end QueryTree.Yaml
