import QueryTree.Yaml.Event
import QueryTree.Yaml.Token.Lexer

/-!
# From YAML tokens to events

A machine with a stack. Its state says what the next token may be, the stack holds the states to
return to after a node. Each step looks at few tokens and gives one event, or nothing if the text is
not well-formed there. Where a node is missing, an empty plain scalar stands for it.
-/

namespace QueryTree.Yaml

/-- What the machine expects. -/
inductive Expectation where
  | stream
  | document (first : Bool)
  | documentContent
  | documentEnd
  | blockNode
  | blockSequence (first : Bool)
  | indentlessSequence
  | blockMappingKey (first : Bool)
  | blockMappingValue
  | flowSequence (first : Bool)
  | flowPairKey
  | flowPairValue
  | flowPairEnd
  | flowMappingKey (first : Bool)
  | flowMappingValue (missing : Bool)
  | nothing
  deriving Repr, DecidableEq

/-- The machine: the tokens to come, what it expects now and later, and the tag handles of the
document. -/
structure Machine where
  lexer : Lexer
  state : Expectation
  stack : List Expectation
  handles : List (String × List UInt8)

/-- A step of the machine, or a part of one. -/
abbrev Step (α : Type) := StateT Machine Option α

namespace Machine

/-- The machine before a text. -/
def ofChars (cs : List Char) : Machine := ⟨.ofChars cs, .stream, [], []⟩

/-- The text is not well-formed. -/
def refuse {α : Type} : Step α := fun _ => none

/-- The next token. -/
def peek : Step Token := fun m => do
  let (t, lexer) ← m.lexer.peek
  some (t, { m with lexer })

/-- Past the next token. -/
def skip : Step Unit := modify fun m => { m with lexer := m.lexer.skip }

/-- Past the next token, to the one after it. -/
def advance : Step Token := do skip; peek

/-- From now on the machine expects something else. -/
def expect (state : Expectation) : Step Unit := modify fun m => { m with state }

/-- After the node to come, the machine expects this. -/
def later (state : Expectation) : Step Unit := modify fun m => { m with stack := state :: m.stack }

/-- The machine goes on with what it expected before the node. -/
def resume : Step Unit := do
  match (← get).stack with
  | [] => refuse
  | state :: stack => modify fun m => { m with state, stack }

/-- An empty scalar where a node is missing. -/
def missing (mark : Mark) : Step Event := pure ⟨.scalar .none "" true, mark⟩

/-! ### Nodes -/

/-- The tag with a handle and a suffix. -/
def resolveTag (handle : String) (suffix : List UInt8) : Step Tag := do
  if handle.isEmpty then pure ⟨suffix⟩
  else
    match (← get).handles.lookup handle with
    | some expansion => pure ⟨expansion ++ suffix⟩
    | none => refuse

/-- The anchor and the tag of a node, in either order, the token after them, and the place where the
node begins. -/
def properties : Step (Option String × Option (String × List UInt8) × Token × Mark) := do
  let first ← peek
  match first.kind with
  | .anchor name =>
    let next ← advance
    match next.kind with
    | .tag handle suffix => pure (some name, some (handle, suffix), ← advance, first.start)
    | _ => pure (some name, none, next, first.start)
  | .tag handle suffix =>
    let next ← advance
    match next.kind with
    | .anchor name => pure (some name, some (handle, suffix), ← advance, first.start)
    | _ => pure (none, some (handle, suffix), next, first.start)
  | _ => pure (none, none, first, first.start)

/-- A node that is no alias. A lone `!` is a tag like any other, also before a scalar. -/
def content (block indentless : Bool) : Step Event := do
  let (anchor, parts, token, start) ← properties
  let tag ← match parts with
    | some (handle, suffix) => do pure (some (← resolveTag handle suffix))
    | none => pure none
  let p : Properties := ⟨anchor, tag⟩
  match token.kind with
  | .blockEntry =>
    if indentless then do
      expect .indentlessSequence
      pure ⟨.sequenceStart p, start⟩
    else empty p start
  | .scalar text plain => do
    resume
    skip
    pure ⟨.scalar p text plain, start⟩
  | .flowSequenceStart => do expect (.flowSequence true); pure ⟨.sequenceStart p, start⟩
  | .flowMappingStart => do expect (.flowMappingKey true); pure ⟨.mappingStart p, start⟩
  | .blockSequenceStart =>
    if block then do expect (.blockSequence true); pure ⟨.sequenceStart p, start⟩
    else empty p start
  | .blockMappingStart =>
    if block then do expect (.blockMappingKey true); pure ⟨.mappingStart p, start⟩
    else empty p start
  | _ => empty p start
where
  /-- A node with properties only. -/
  empty (p : Properties) (start : Mark) : Step Event := do
    if p.anchor.isSome || p.tag.isSome then
      resume
      pure ⟨.scalar p "" true, start⟩
    else refuse

/-- A node; block collections are allowed in block context, and a sequence may stand at the column
of the mapping that holds it. -/
def node (block indentless : Bool) : Step Event := do
  let t ← peek
  match t.kind with
  | .alias name => do
    resume
    skip
    pure ⟨.alias name, t.start⟩
  | _ => content block indentless

/-- A node, unless the token is one of those that show it is missing. -/
def nodeUnless (without : List TokenKind) (next : Expectation) (block indentless : Bool)
    (mark : Mark) : Step Event := do
  let t ← peek
  if without.contains t.kind then do
    expect next
    missing mark
  else do
    later next
    node block indentless

/-- The end of a collection, whose token is passed. -/
def close (kind : EventKind) (mark : Mark) : Step Event := do
  resume
  skip
  pure ⟨kind, mark⟩

/-! ### Documents -/

/-- Past tokens that end documents. -/
def skipDocumentEnds : Nat → Step Unit
  | 0 => refuse
  | limit + 1 => do
    let t ← peek
    if t.kind == .documentEnd then do
      skip
      skipDocumentEnds limit
    else pure ()

/-- The handles that every document has. -/
def defaultHandles : List (String × List UInt8) :=
  [("!", [Tag.exclamation]), ("!!", (Tag.ofKind "").bytes)]

/-- The directives before a document: at most one version, which must be 1.1 or 1.2, and each tag
handle once. -/
def directives (versioned : Bool) : Nat → Step Unit
  | 0 => refuse
  | limit + 1 => do
    let t ← peek
    match t.kind with
    | .versionDirective major minor =>
      if versioned || major != 1 || !(minor == 1 || minor == 2) then refuse
      else do
        skip
        directives true limit
    | .tagDirective handle expansion =>
      if ((← get).handles.lookup handle).isSome then refuse
      else do
        modify fun m => { m with handles := (handle, expansion) :: m.handles }
        skip
        directives versioned limit
    | _ => modify fun m => { m with handles := m.handles ++ defaultHandles }

/-- The tokens that show that a document has no content. -/
def isBetweenDocuments : TokenKind → Bool
  | .versionDirective _ _ => true
  | .tagDirective _ _ => true
  | .documentStart => true
  | .documentEnd => true
  | .streamEnd => true
  | _ => false

/-- The beginning of a document, or the end of the text. Only the first document may begin without
its indicator. -/
def document (first : Bool) : Step Event := do
  let limit := (← get).lexer.limit
  if !first then skipDocumentEnds limit
  let t ← peek
  if first && (t.kind == .documentEnd || !isBetweenDocuments t.kind) then
    directives false limit
    later .documentEnd
    expect .blockNode
    pure ⟨.documentStart, t.start⟩
  else if t.kind == .streamEnd then
    expect .nothing
    skip
    pure ⟨.streamEnd, t.start⟩
  else
    directives false limit
    if (← peek).kind == .documentStart then
      later .documentEnd
      expect .documentContent
      skip
      pure ⟨.documentStart, t.start⟩
    else refuse

/-- The content of a document after its indicator. -/
def documentContent : Step Event := do
  let t ← peek
  if isBetweenDocuments t.kind then
    resume
    missing t.start
  else node true false

/-- The end of a document. -/
def documentEnd : Step Event := do
  let t ← peek
  if t.kind == .documentEnd then skip
  modify fun m => { m with handles := [] }
  expect (.document false)
  pure ⟨.documentEnd, t.start⟩

/-! ### Collections -/

/-- An item of a block sequence, or its end. -/
def blockSequence (first : Bool) : Step Event := do
  if first then skip
  let t ← peek
  match t.kind with
  | .blockEntry => do
    skip
    nodeUnless [.blockEntry, .blockEnd] (.blockSequence false) true false t.stop
  | .blockEnd => close .sequenceEnd t.start
  | _ => refuse

/-- An item of a sequence at the column of its mapping, or its end. -/
def indentlessSequence : Step Event := do
  let t ← peek
  if t.kind == .blockEntry then
    skip
    nodeUnless [.blockEntry, .key, .value, .blockEnd] .indentlessSequence true false t.stop
  else
    resume
    pure ⟨.sequenceEnd, t.start⟩

/-- A key of a block mapping, or its end. -/
def blockMappingKey (first : Bool) : Step Event := do
  if first then skip
  let t ← peek
  match t.kind with
  | .key => do
    skip
    nodeUnless [.key, .value, .blockEnd] .blockMappingValue true true t.stop
  | .blockEnd => close .mappingEnd t.start
  | _ => refuse

/-- A value of a block mapping. -/
def blockMappingValue : Step Event := do
  let t ← peek
  if t.kind == .value then
    skip
    nodeUnless [.key, .value, .blockEnd] (.blockMappingKey false) true true t.stop
  else
    expect (.blockMappingKey false)
    missing t.start

/-- Past the comma before an entry that is not the first one. -/
def separator (first : Bool) : Step Token := do
  let t ← peek
  if first then pure t
  else if t.kind == .flowEntry then advance
  else refuse

/-- An item of a flow sequence, or its end. A key makes it a mapping of one entry. -/
def flowSequence (first : Bool) : Step Event := do
  if first then skip
  let t ← peek
  if t.kind == .flowSequenceEnd then close .sequenceEnd t.start
  else
    let t ← separator first
    if t.kind == .key then
      expect .flowPairKey
      skip
      pure ⟨.mappingStart .none, t.start⟩
    else if t.kind == .flowSequenceEnd then close .sequenceEnd t.start
    else
      later (.flowSequence false)
      node false false

/-- The key of a mapping of one entry. A missing key takes the token that shows it. -/
def flowPairKey : Step Event := do
  let t ← peek
  if [TokenKind.value, .flowEntry, .flowSequenceEnd].contains t.kind then
    skip
    expect .flowPairValue
    missing t.stop
  else
    later .flowPairValue
    node false false

/-- The value of a mapping of one entry. -/
def flowPairValue : Step Event := do
  let t ← peek
  if t.kind == .value then
    let t ← advance
    nodeUnless [.flowEntry, .flowSequenceEnd] .flowPairEnd false false t.start
  else
    expect .flowPairEnd
    missing t.start

/-- The end of a mapping of one entry. -/
def flowPairEnd : Step Event := do
  let t ← peek
  expect (.flowSequence false)
  pure ⟨.mappingEnd, t.start⟩

/-- A key of a flow mapping, or its end. -/
def flowMappingKey (first : Bool) : Step Event := do
  if first then skip
  let t ← peek
  if t.kind == .flowMappingEnd then close .mappingEnd t.start
  else
    let t ← separator first
    if t.kind == .key then
      let t ← advance
      nodeUnless [.value, .flowEntry, .flowMappingEnd] (.flowMappingValue false) false false t.start
    else if t.kind == .flowMappingEnd then close .mappingEnd t.start
    else
      later (.flowMappingValue true)
      node false false

/-- A value of a flow mapping. -/
def flowMappingValue (absent : Bool) : Step Event := do
  let t ← peek
  if !absent && t.kind == .value then
    let t ← advance
    nodeUnless [.flowEntry, .flowMappingEnd] (.flowMappingKey false) false false t.start
  else
    expect (.flowMappingKey false)
    missing t.start

/-- The next event. -/
def step : Step Event := do
  match (← get).state with
  | .stream => do
    let t ← peek
    expect (.document true)
    skip
    pure ⟨.streamStart, t.start⟩
  | .document first => document first
  | .documentContent => documentContent
  | .documentEnd => documentEnd
  | .blockNode => node true false
  | .blockSequence first => blockSequence first
  | .indentlessSequence => indentlessSequence
  | .blockMappingKey first => blockMappingKey first
  | .blockMappingValue => blockMappingValue
  | .flowSequence first => flowSequence first
  | .flowPairKey => flowPairKey
  | .flowPairValue => flowPairValue
  | .flowPairEnd => flowPairEnd
  | .flowMappingKey first => flowMappingKey first
  | .flowMappingValue absent => flowMappingValue absent
  | .nothing => refuse

end Machine

end QueryTree.Yaml
