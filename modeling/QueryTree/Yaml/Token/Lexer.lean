import QueryTree.Yaml.Token.Property

/-!
# From text to YAML tokens

A lexer gives one token after the other. A scalar may turn out to be a key only when the `:` after it
is seen; therefore a place where a key could begin is remembered, and no token from it on is given
away until the question is settled: the tokens that make it a key are put into the queue before it.
A remembered key ends with its line and after 1024 bytes. Indentation opens and closes block
collections.
-/

namespace QueryTree.Yaml

/-- A place where a key may begin. A required key begins a line of its mapping. -/
structure PossibleKey where
  required : Bool
  /-- The number of the token that begins the key. -/
  number : Nat
  mark : Mark

/-- A text on its way to tokens. -/
structure Lexer where
  cursor : Cursor
  /-- Larger than the number of characters of the text. -/
  limit : Nat
  /-- The number of bytes before the block that cannot be read, if there is one. -/
  refused : Option Nat
  started : Bool
  /-- The key that may have begun in the innermost flow collection, and in those around it. -/
  key : Option PossibleKey
  outerKeys : List (Option PossibleKey)
  /-- The column of the innermost block collection, and those around it; -1 outside of all. -/
  indent : Int
  outerIndents : List Int
  /-- A key may begin here. -/
  keyAllowed : Bool
  /-- Tokens not yet given away, and the number of those given away. -/
  queue : List Token
  given : Nat

namespace Lexer

/-- The lexer at the beginning of a text. -/
def ofChars (cs : List Char) : Lexer :=
  { cursor := ⟨cs, .start⟩, limit := cs.length + 8, refused := refusedFrom? 0 0 cs,
    started := false, key := none, outerKeys := [], indent := -1, outerIndents := [],
    keyAllowed := false, queue := [], given := 0 }

/-- Inside a flow collection. -/
def inFlow (l : Lexer) : Bool := !l.outerKeys.isEmpty

/-- The place of the next character. -/
def mark (l : Lexer) : Mark := l.cursor.mark

/-- One more token at the end of the queue. -/
def emit (l : Lexer) (t : Token) : Lexer := { l with queue := l.queue ++ [t] }

/-- A token before the one with a number. -/
def insertBefore (l : Lexer) (number : Nat) (t : Token) : Lexer :=
  { l with queue := l.queue.take (number - l.given) ++ [t] ++ l.queue.drop (number - l.given) }

/-- A token of `n` characters. -/
def emitChars (l : Lexer) (kind : TokenKind) (n : Nat) : Lexer :=
  let after := l.cursor.advanceBy n
  { l.emit ⟨kind, l.mark, after.mark⟩ with cursor := after }

/-! ### Possible keys -/

/-- Too far behind to become a key. -/
def isStale (m : Mark) (k : PossibleKey) : Bool :=
  decide (k.mark.line < m.line) || decide (k.mark.offset + 1024 < m.offset)

/-- A possible key, unless it is stale; a required one may not become stale. -/
def refreshKey (m : Mark) : Option PossibleKey → Option (Option PossibleKey)
  | none => some none
  | some k => if isStale m k then (if k.required then none else some none) else some (some k)

/-- The possible keys without the stale ones. -/
def dropStale (l : Lexer) : Option Lexer := do
  let key ← refreshKey l.mark l.key
  let outerKeys ← l.outerKeys.mapM (refreshKey l.mark)
  some { l with key, outerKeys }

/-- No key begins at the remembered place. -/
def forgetKey (l : Lexer) : Option Lexer :=
  match l.key with
  | some k => if k.required then none else some { l with key := none }
  | none => some l

/-- A key may begin with the next token. -/
def rememberKey (l : Lexer) : Option Lexer :=
  if l.keyAllowed then do
    let required := !l.inFlow && l.indent == (l.mark.column : Int)
    let l ← l.forgetKey
    some { l with key := some ⟨required, l.given + l.queue.length, l.mark⟩ }
  else some l

/-! ### Indentation -/

/-- A block collection opens at a column deeper than the innermost one. -/
def openBlock (l : Lexer) (column : Nat) (number : Option Nat) (kind : TokenKind) (m : Mark) :
    Lexer :=
  if l.inFlow || (column : Int) ≤ l.indent then l
  else
    let l := { l with outerIndents := l.indent :: l.outerIndents, indent := column }
    let t : Token := ⟨kind, m, m⟩
    match number with
    | none => l.emit t
    | some n => l.insertBefore n t

/-- Closes collections given by their columns, from the innermost one on. -/
def closeColumns (column : Int) (m : Mark) : Int → List Int → List Token × Int × List Int
  | indent, [] => ([], indent, [])
  | indent, outer :: rest =>
    if column < indent then
      let (tokens, indent, rest) := closeColumns column m outer rest
      (⟨.blockEnd, m, m⟩ :: tokens, indent, rest)
    else ([], indent, outer :: rest)

/-- The block collections deeper than a column are closed. -/
def closeBlocks (l : Lexer) (column : Int) : Lexer :=
  if l.inFlow then l
  else
    let (tokens, indent, outerIndents) := closeColumns column l.mark l.indent l.outerIndents
    { l with queue := l.queue ++ tokens, indent, outerIndents }

/-! ### One token -/

/-- Spaces, comments and line breaks up to the next token. A byte order mark at the beginning of a
line is a space, which takes up a column. In block context a tab is no space where a key may begin,
and a new line may begin a key. -/
def skipSpaces : Nat → Lexer → Lexer
  | 0, l => l
  | limit + 1, l =>
    let c := if l.mark.column = 0 ∧ l.cursor.next (· == byteOrderMark) then l.cursor.advance
      else l.cursor
    let tabs := l.inFlow || !l.keyAllowed
    let c := (c.skipWhile fun x => x == ' ' || (tabs && x == '\t')).skipComment
    if c.next isBreak then
      skipSpaces limit { l with cursor := c.skipBreak, keyAllowed := l.keyAllowed || !l.inFlow }
    else { l with cursor := c }

/-- The end of the text. -/
def fetchEnd (l : Lexer) : Option Lexer := do
  let m := l.mark
  let m := if m.column = 0 then m else ⟨m.offset, m.line + 1, 0⟩
  let l := { l with cursor := ⟨l.cursor.rest, m⟩ }
  let l ← (l.closeBlocks (-1)).forgetKey
  some ({ l with keyAllowed := false }.emitChars .streamEnd 0)

/-- A directive. -/
def fetchDirective (l : Lexer) : Option Lexer := do
  let l ← (l.closeBlocks (-1)).forgetKey
  let (kind, stop, after) ← directive l.limit l.cursor
  some { l.emit ⟨kind, l.mark, stop.mark⟩ with cursor := after, keyAllowed := false }

/-- A document indicator. -/
def fetchIndicator (l : Lexer) (kind : TokenKind) : Option Lexer := do
  let l ← (l.closeBlocks (-1)).forgetKey
  some ({ l with keyAllowed := false }.emitChars kind 3)

/-- The opening of a flow collection. -/
def fetchFlowStart (l : Lexer) (kind : TokenKind) : Option Lexer := do
  let l ← l.rememberKey
  let l := { l with outerKeys := l.key :: l.outerKeys, key := none, keyAllowed := true }
  some (l.emitChars kind 1)

/-- The closing of a flow collection. -/
def fetchFlowEnd (l : Lexer) (kind : TokenKind) : Option Lexer := do
  let l ← l.forgetKey
  let l := match l.outerKeys with
    | [] => l
    | key :: outerKeys => { l with key, outerKeys }
  some ({ l with keyAllowed := false }.emitChars kind 1)

/-- A comma in a flow collection. -/
def fetchFlowEntry (l : Lexer) : Option Lexer := do
  let l ← l.forgetKey
  some ({ l with keyAllowed := true }.emitChars .flowEntry 1)

/-- An indicator that may open a block collection where a key may begin. -/
def openAt (l : Lexer) (kind : TokenKind) : Option Lexer :=
  if l.inFlow then some l
  else if l.keyAllowed then some (l.openBlock l.mark.column none kind l.mark)
  else none

/-- The hyphen before an item. -/
def fetchBlockEntry (l : Lexer) : Option Lexer := do
  let l ← (← l.openAt .blockSequenceStart).forgetKey
  some ({ l with keyAllowed := true }.emitChars .blockEntry 1)

/-- The question mark before a key. -/
def fetchKey (l : Lexer) : Option Lexer := do
  let l ← (← l.openAt .blockMappingStart).forgetKey
  some ({ l with keyAllowed := !l.inFlow }.emitChars .key 1)

/-- The colon after a key. If a key may have begun, it has. -/
def fetchValue (l : Lexer) : Option Lexer :=
  match l.key with
  | some k =>
    let l := l.insertBefore k.number ⟨.key, k.mark, k.mark⟩
    let l := l.openBlock k.mark.column (some k.number) .blockMappingStart k.mark
    some ({ l with key := none, keyAllowed := false }.emitChars .value 1)
  | none => do
    let l ← l.openAt .blockMappingStart
    some ({ l with keyAllowed := !l.inFlow }.emitChars .value 1)

/-- An anchor or an alias. -/
def fetchAnchor (l : Lexer) (kind : String → TokenKind) : Option Lexer := do
  let l ← l.rememberKey
  let (name, c) ← anchorName l.cursor
  some { l.emit ⟨kind name, l.mark, c.mark⟩ with cursor := c, keyAllowed := false }

/-- A tag. -/
def fetchTag (l : Lexer) : Option Lexer := do
  let l ← l.rememberKey
  let (kind, c) ← tagToken l.inFlow l.limit l.cursor
  some { l.emit ⟨kind, l.mark, c.mark⟩ with cursor := c, keyAllowed := false }

/-- A block scalar. -/
def fetchBlockScalar (l : Lexer) (literal : Bool) : Option Lexer := do
  let l ← l.forgetKey
  let (text, c) ← blockScalar literal l.indent l.limit l.cursor
  some { l.emit ⟨.scalar text false, l.mark, c.mark⟩ with cursor := c, keyAllowed := true }

/-- A quoted scalar. -/
def fetchQuoted (l : Lexer) (single : Bool) : Option Lexer := do
  let l ← l.rememberKey
  let (text, c) ← quotedScalar single l.limit l.cursor
  some { l.emit ⟨.scalar text false, l.mark, c.mark⟩ with cursor := c, keyAllowed := false }

/-- A plain scalar; a key may begin after it if line breaks follow. -/
def fetchPlain (l : Lexer) : Option Lexer := do
  let l ← l.rememberKey
  let (text, broken, c) ← plainScalar l.inFlow (l.indent + 1) l.limit l.cursor
  some { l.emit ⟨.scalar text true, l.mark, c.mark⟩ with cursor := c, keyAllowed := broken }

/-- A plain scalar begins with `x` at the cursor. -/
def beginsPlain (l : Lexer) (x : Char) : Bool :=
  !(isBlank x || isBreak x || "-?:,[]\x7b\x7d#&*!|>'\"%@`".toList.contains x)
    || (x == '-' && !(l.cursor.peekAt? 1).any isBlank)
    || (!l.inFlow && (x == '?' || x == ':') && !l.cursor.spaceAt 1)

/-- The token at the cursor, which begins with `x`. -/
def fetchAt (l : Lexer) (x : Char) : Option Lexer :=
  let c := l.cursor
  if l.mark.column = 0 ∧ x = '%' then l.fetchDirective
  else if c.atIndicator '-' then l.fetchIndicator .documentStart
  else if c.atIndicator '.' then l.fetchIndicator .documentEnd
  else if x = '[' then l.fetchFlowStart .flowSequenceStart
  else if x = '\x7b' then l.fetchFlowStart .flowMappingStart
  else if x = ']' then l.fetchFlowEnd .flowSequenceEnd
  else if x = '\x7d' then l.fetchFlowEnd .flowMappingEnd
  else if x = ',' then l.fetchFlowEntry
  else if x = '-' ∧ c.spaceAt 1 then l.fetchBlockEntry
  else if x = '?' ∧ (l.inFlow || c.spaceAt 1) then l.fetchKey
  else if x = ':' ∧ (l.inFlow || c.spaceAt 1) then l.fetchValue
  else if x = '*' then l.fetchAnchor .alias
  else if x = '&' then l.fetchAnchor .anchor
  else if x = '!' then l.fetchTag
  else if x = '|' ∧ !l.inFlow then l.fetchBlockScalar true
  else if x = '>' ∧ !l.inFlow then l.fetchBlockScalar false
  else if x = '\'' then l.fetchQuoted true
  else if x = '"' then l.fetchQuoted false
  else if l.beginsPlain x then l.fetchPlain
  else none

/-- At least one more token in the queue. -/
def fetchMore (l : Lexer) : Option Lexer :=
  if !l.started then
    some ({ l with started := true, keyAllowed := true }.emitChars .streamStart 0)
  else do
    let l ← (skipSpaces l.limit l).dropStale
    let l := l.closeBlocks l.mark.column
    match l.cursor.peek? with
    | none => l.fetchEnd
    | some x => l.fetchAt x

/-- The text can be read up to the cursor and a few bytes on, as far as a lexer looks ahead. -/
def isReadable (l : Lexer) : Bool := l.refused.all (l.mark.offset + 4 ≤ ·)

/-- At least one more token in the queue, if the text can be read that far. -/
def fetch (l : Lexer) : Option Lexer := l.fetchMore.filter isReadable

/-! ### The stream of tokens -/

/-- The first token of the queue may still become part of a key. -/
def undecided (l : Lexer) : Bool :=
  (l.key :: l.outerKeys).any fun k => k.any (·.number == l.given)

/-- Fetches until the first token of the queue is decided. -/
def settle : Nat → Lexer → Option Lexer
  | 0, _ => none
  | limit + 1, l =>
    if l.queue.isEmpty then l.fetch.bind (settle limit)
    else do
      let l ← l.dropStale
      if l.undecided then l.fetch.bind (settle limit) else some l

/-- The next token, which stays where it is. -/
def peek (l : Lexer) : Option (Token × Lexer) := do
  let l ← settle l.limit l
  let t ← l.queue.head?
  some (t, l)

/-- Past the next token. -/
def skip (l : Lexer) : Lexer := { l with queue := l.queue.drop 1, given := l.given + 1 }

end Lexer

end QueryTree.Yaml
