import QueryTree.Text.Bytes

/-!
# Texts as a terminal shows them

A text may hold sequences that tell a terminal what to do. The plain text of such a text leaves them
out, together with all controls but white space; every character beyond ASCII is kept. A sequence
that does not end before the text does takes all that follows, except for white space in its first
part.
-/

namespace QueryTree.Text.Terminal

/-- A part of a sequence that has been read. -/
inductive Part where
  /-- The escape character. -/
  | escape
  /-- An escape sequence with intermediate characters. -/
  | intermediate
  /-- A control sequence, which sets colours and the like. -/
  | control
  /-- A command to the system, which a bell ends. -/
  | command
  /-- A device control before its text. -/
  | device
  /-- A text that is not shown. -/
  | string
  deriving Repr, DecidableEq

/-- How a character is read. -/
inductive Reading where
  /-- As text. -/
  | text
  /-- As part of a sequence. -/
  | inside (part : Part)
  /-- As text after white space in a sequence; the next control goes on with the sequence. -/
  | paused (part : Part)
  deriving Repr, DecidableEq

/-- The escape character. -/
def escape : Char := '\x1b'

/-- The controls that end a sequence at any place. -/
def isCancel (c : Char) : Bool := c == '\x18' || c == '\x1a'

/-- The controls that are white space. -/
def isSpacing (c : Char) : Bool := c == '\t' || c == '\n' || c == '\x0c' || c == '\r'

/-- The characters that a text shows: all but controls that are no white space. -/
def isShown (c : Char) : Bool := isSpacing c || (0x20 ≤ c.toNat && c.toNat != 0x7F)

/-- The character's code lies between two others. -/
def between (low high : Nat) (c : Char) : Bool := low ≤ c.toNat && c.toNat ≤ high

/-- How the character after a part of a sequence is read that neither cancels the sequence nor begins
another one. Text that is not shown ends with a certain byte, be it a part of a character. -/
def after (part : Part) (c : Char) : Reading :=
  match part with
  | .escape =>
    if c == '[' then .inside .control
    else if c == ']' then .inside .command
    else if c == 'P' then .inside .device
    else if c == 'X' || c == '^' || c == '_' then .inside .string
    else if between 0x20 0x2F c then .inside .intermediate
    else if between 0x30 0x7E c then .text
    else .inside .escape
  | .intermediate => if between 0x30 0x7E c then .text else .inside .intermediate
  | .control => if between 0x40 0x7E c then .text else .inside .control
  | .command => if c == '\x07' then .text else .inside .command
  | .device => if between 0x40 0x7E c then .inside .string else .inside .device
  | .string => if (bytes (String.singleton c)).contains 0x9C then .text else .inside .string

/-- White space in this part of a sequence is shown. -/
def Part.showsSpacing : Part → Bool
  | .escape => true
  | .intermediate => true
  | .control => true
  | _ => false

/-- How the character after `c` is read, and whether `c` is shown. -/
def step (r : Reading) (c : Char) : Reading × Bool :=
  if c == escape then (.inside .escape, false)
  else if isCancel c then (.text, false)
  else
    match r with
    | .text => (.text, isShown c)
    | .paused part =>
      if 0x80 ≤ c.toNat then (.text, true)
      else if isShown c then (.paused part, true)
      else (.inside part, false)
    | .inside part =>
      if part.showsSpacing && isSpacing c then (.paused part, true) else (after part c, false)

/-- The characters that are shown. -/
def shown : Reading → List Char → List Char
  | _, [] => []
  | r, c :: cs =>
    let (r, visible) := step r c
    if visible then c :: shown r cs else shown r cs

/-- A text without the sequences for a terminal. -/
def plain (s : String) : String := String.ofList (shown .text s.toList)

end QueryTree.Text.Terminal
