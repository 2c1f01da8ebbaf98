import QueryTree.Yaml.Cursor
import QueryTree.Text.Digits

/-!
# Scalars in a YAML text

The contents of plain, quoted and block scalars. Spaces around a line break inside a plain or quoted
scalar are dropped, a single break becomes a space, and of several breaks the first one is dropped.
Every reader gives `none` for a text that is not well-formed. The loops are bounded by a limit that
is larger than the length of the text.
-/

namespace QueryTree.Yaml

/-! ### Folding -/

/-- A scalar in the making: its text so far, the spaces after it, and the line breaks after it. -/
structure Folding where
  text : String
  blanks : String
  firstBreak : String
  laterBreaks : String
  /-- A line break has been seen since the text. -/
  broken : Bool

namespace Folding

/-- Nothing yet. -/
def empty : Folding := ⟨"", "", "", "", false⟩

/-- The pending spaces or breaks become text. -/
def settle (f : Folding) : Folding :=
  if f.broken then
    let joined :=
      if f.firstBreak.toList.head? == some '\n' then
        if f.laterBreaks.isEmpty then " " else f.laterBreaks
      else f.firstBreak ++ f.laterBreaks
    ⟨f.text ++ joined, "", "", "", false⟩
  else ⟨f.text ++ f.blanks, "", "", "", false⟩

/-- One more character of text. -/
def push (f : Folding) (c : Char) : Folding := { f with text := f.text.push c }

/-- The spaces and breaks at the cursor. In a plain scalar, whose lines are indented by `indent`, a
tab may not stand for indentation. -/
def eatSpaces (indent : Option Int) : Nat → Folding → Cursor → Option (Folding × Cursor)
  | 0, _, _ => none
  | limit + 1, f, c =>
    match c.peek? with
    | none => some (f, c)
    | some x =>
      if isBlank x then
        if f.broken && x == '\t' && indent.any (fun i => decide ((c.mark.column : Int) < i)) then none
        else eatSpaces indent limit (if f.broken then f else { f with blanks := f.blanks.push x })
          c.advance
      else if isBreak x then
        let (text, c) := c.takeBreak
        if f.broken then
          eatSpaces indent limit { f with laterBreaks := f.laterBreaks ++ text } c
        else
          eatSpaces indent limit { f with blanks := "", firstBreak := text, broken := true } c
      else some (f, c)

end Folding

/-! ### Plain scalars -/

/-- The characters that end a plain scalar in a flow collection. -/
def isFlowIndicator (x : Char) : Bool :=
  x == ',' || x == '[' || x == ']' || x == '\x7b' || x == '\x7d'

/-- The characters of a plain scalar up to the next space. -/
def plainRun (flow : Bool) : Nat → Folding → Cursor → Option (Folding × Cursor)
  | 0, _, _ => none
  | limit + 1, f, c =>
    match c.peek? with
    | none => some (f, c)
    | some x =>
      if isBlank x || isBreak x then some (f, c)
      else if flow && x == ':' && (c.peekAt? 1).any (fun y => isFlowIndicator y || y == '?') then none
      else if (x == ':' && c.spaceAt 1) || (flow && isFlowIndicator x) then some (f, c)
      else plainRun flow limit (f.settle.push x) c.advance

/-- The lines of a plain scalar. -/
def plainLines (flow : Bool) (indent : Int) (limit : Nat) :
    Nat → Folding → Cursor → Option (Folding × Cursor)
  | 0, _, _ => none
  | more + 1, f, c =>
    if c.atDocumentIndicator || c.next (· == '#') then some (f, c)
    else do
      let (f, c) ← plainRun flow limit f c
      if c.next (fun x => isBlank x || isBreak x) then
        let (f, c) ← f.eatSpaces (some indent) limit c
        if !flow && (c.mark.column : Int) < indent then some (f, c)
        else plainLines flow indent limit more f c
      else some (f, c)

/-- A plain scalar, and whether line breaks follow it. -/
def plainScalar (flow : Bool) (indent : Int) (limit : Nat) (c : Cursor) :
    Option (String × Bool × Cursor) := do
  let (f, c) ← plainLines flow indent limit limit .empty c
  some (f.text, f.broken, c)

/-! ### Quoted scalars -/

/-- The character that a backslash and a letter stand for. -/
def simpleEscape? : Char → Option Char
  | '0' => some '\x00'
  | 'a' => some '\x07'
  | 'b' => some '\x08'
  | 't' => some '\t'
  | '\t' => some '\t'
  | 'n' => some '\n'
  | 'v' => some '\x0b'
  | 'f' => some '\x0c'
  | 'r' => some '\r'
  | 'e' => some '\x1b'
  | ' ' => some ' '
  | '"' => some '"'
  | '/' => some '/'
  | '\\' => some '\\'
  | 'N' => some '\u0085'
  | '_' => some '\u00a0'
  | 'L' => some '\u2028'
  | 'P' => some '\u2029'
  | _ => none

/-- The number of hexadecimal digits that follow a letter of an escape. -/
def escapeLength? : Char → Option Nat
  | 'x' => some 2
  | 'u' => some 4
  | 'U' => some 8
  | _ => none

/-- The character with a code point, if there is one. -/
def charOf? (n : Nat) : Option Char := if n.isValidChar then some (Char.ofNat n) else none

/-- An escape after its backslash. -/
def escape? (c : Cursor) : Option (Char × Cursor) := do
  let x ← c.peek?
  match simpleEscape? x with
  | some y => some (y, c.advance)
  | none =>
    let n ← escapeLength? x
    let digits := c.advance.rest.take n
    if digits.length = n then
      let y ← charOf? (← Text.value? 16 digits)
      some (y, c.advanceBy (n + 1))
    else none

/-- The characters of a quoted scalar up to the next space or the closing quote. -/
def quotedRun (single : Bool) : Nat → Folding → Cursor → Option (Folding × Cursor)
  | 0, _, _ => none
  | limit + 1, f, c =>
    match c.peek? with
    | none => some (f, c)
    | some x =>
      if isBlank x || isBreak x then some (f, c)
      else if single && x == '\'' && c.peekAt? 1 == some '\'' then
        quotedRun single limit (f.push '\'') (c.advanceBy 2)
      else if x == (if single then '\'' else '"') then some (f, c)
      else if !single && x == '\\' then
        if (c.peekAt? 1).any isBreak then some ({ f with broken := true }, c.advance.skipBreak)
        else do
          let (y, c) ← escape? c.advance
          quotedRun single limit (f.push y) c
      else quotedRun single limit (f.push x) c.advance

/-- The lines of a quoted scalar up to its closing quote. -/
def quotedLines (single : Bool) (limit : Nat) :
    Nat → Folding → Cursor → Option (String × Cursor)
  | 0, _, _ => none
  | more + 1, f, c =>
    if c.atDocumentIndicator || c.atEnd then none
    else do
      let (f, c) ← quotedRun single limit f c
      if c.next (· == if single then '\'' else '"') then some (f.text, c.advance)
      else
        let (f, c) ← f.eatSpaces none limit c
        quotedLines single limit more f.settle c

/-- A quoted scalar, at its opening quote. -/
def quotedScalar (single : Bool) (limit : Nat) (c : Cursor) : Option (String × Cursor) :=
  quotedLines single limit limit .empty c.advance

/-! ### Block scalars -/

/-- What is kept of the line breaks at the end of a block scalar. -/
inductive Chomping where
  | strip
  | clip
  | keep
  deriving Repr, DecidableEq

/-- A chomping indicator. -/
def chomping? (c : Cursor) : Option (Chomping × Cursor) :=
  match c.peek? with
  | some '+' => some (.keep, c.advance)
  | some '-' => some (.strip, c.advance)
  | _ => none

/-- An indentation indicator: `some none` if there is none, `none` for the digit zero. -/
def increment? (c : Cursor) : Option (Option Nat × Cursor) :=
  match c.peek? with
  | some x =>
    if x == '0' then none
    else if x.isDigit then some (some (x.toNat - 48), c.advance)
    else some (none, c)
  | none => some (none, c)

/-- The indicators after the `|` or `>`, in either order. -/
def blockIndicators (c : Cursor) : Option (Chomping × Option Nat × Cursor) :=
  match chomping? c with
  | some (chomping, c) => do
    let (increment, c) ← increment? c
    some (chomping, increment, c)
  | none => do
    let (increment, c) ← increment? c
    match increment, chomping? c with
    | some n, some (chomping, c) => some (chomping, some n, c)
    | _, _ => some (.clip, increment, c)

/-- The indentation and the line breaks before a line of a block scalar, and the deepest
indentation seen. An indentation of zero is not yet known. -/
def blockBreaks (indent : Nat) : Nat → String → Nat → Cursor → Option (String × Nat × Cursor)
  | 0, _, _, _ => none
  | limit + 1, breaks, deepest, c =>
    let room := if indent = 0 then c.rest.length else indent - c.mark.column
    let c := c.advanceBy ((c.rest.take room).takeWhile (· == ' ')).length
    let deepest := max deepest c.mark.column
    if (indent = 0 || c.mark.column < indent) && c.next (· == '\t') then none
    else if c.next isBreak then
      let (text, c) := c.takeBreak
      blockBreaks indent limit (breaks ++ text) deepest c
    else some (breaks, deepest, c)

/-- A block scalar in the making. -/
structure BlockText where
  text : String
  lineBreak : String
  emptyLines : String
  /-- The last line began with a space. -/
  blank : Bool

/-- The text with the breaks before the next line, which begins with a space if `blank`. A folded
break between two lines that begin without one becomes a space, or nothing before empty lines. -/
def BlockText.settle (b : BlockText) (literal blank : Bool) : String :=
  if !literal && b.lineBreak.toList.head? == some '\n' && !b.blank && !blank then
    b.text ++ (if b.emptyLines.isEmpty then " " else "") ++ b.emptyLines
  else b.text ++ b.lineBreak ++ b.emptyLines

/-- The lines of a block scalar. -/
def blockLines (literal : Bool) (indent limit : Nat) :
    Nat → BlockText → Cursor → Option (BlockText × Cursor)
  | 0, _, _ => none
  | more + 1, b, c =>
    if c.mark.column = indent ∧ !c.atEnd then do
      let blank := c.next isBlank
      let (line, c) := c.takeWhile (!isBreak ·)
      let text := b.settle literal blank ++ String.ofList line
      let (lineBreak, c) := c.takeBreak
      let (emptyLines, _, c) ← blockBreaks indent limit "" 0 c
      blockLines literal indent limit more ⟨text, lineBreak, emptyLines, blank⟩ c
    else some (b, c)

/-- A block scalar, at its `|` or `>`, inside a block indented by `outer`. -/
def blockScalar (literal : Bool) (outer : Int) (limit : Nat) (c : Cursor) :
    Option (String × Cursor) := do
  let (chomping, increment, c) ← blockIndicators c.advance
  let c := (c.skipWhile isBlank).skipComment
  if !c.lineEnds then none
  else
    let c := c.skipBreak
    let given := match increment with
      | some n => n + outer.toNat
      | none => 0
    let (emptyLines, deepest, c) ← blockBreaks given limit "" 0 c
    let indent := if given = 0 then max deepest (max (outer + 1).toNat 1) else given
    let (b, c) ← blockLines literal indent limit limit ⟨"", "", emptyLines, false⟩ c
    match chomping with
    | .strip => some (b.text, c)
    | .clip => some (b.text ++ b.lineBreak, c)
    | .keep => some (b.text ++ b.lineBreak ++ b.emptyLines, c)

end QueryTree.Yaml
