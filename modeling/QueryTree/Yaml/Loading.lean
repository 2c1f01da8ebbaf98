import QueryTree.Yaml.Document
import QueryTree.Yaml.Scalar

/-!
# From a YAML text to its value

The value of the events of a document. An alias stands for a copy of the node that its anchor names.
Collections may lie in one another 128 deep, an alias counting at the place where it stands, and all
aliases together may be followed a hundred times as often as there are events.
-/

namespace QueryTree.Yaml

/-- How far the events are used up, and how often an alias was followed. -/
structure Progress where
  position : Nat
  jumps : Nat

/-- A part of a document on its way to a value. -/
abbrev Load (α : Type) := StateT Progress (Except Error) α

/-- The greatest number of collections that may lie in one another. -/
def depthLimit : Nat := 128

namespace Document

/-- The next event, which stays where it is. -/
def peek (d : Document) : Load (NodeEvent × Mark) := do
  match d.events[(← get).position]? with
  | some e => pure e
  | none => throw (d.failure.getD .syntaxError)

/-- Past the next event. -/
def pass : Load Unit := modify fun p => { p with position := p.position + 1 }

/-- A value that a tag of the node puts around it. -/
def wrap (tag : Option Tag) (v : Value) : Value :=
  match tag.bind Tag.localName? with
  | some name => .tagged name v
  | none => v

/-- The value of a scalar whose tag asks for one kind of value. -/
def forcedValue? (tag : Tag) (text : String) : Option (Except Defect Value) :=
  let wrong (expected : String) : Except Defect Value := .error (.wrongContent text expected)
  if tag == .ofKind "bool" then
    some (match boolOf? text with
      | some b => .ok (.bool b)
      | none => wrong "a boolean")
  else if tag == .ofKind "int" then
    some (match intOf? text.toList with
      | some (.ok n) => .ok (.int n)
      | some (.error wide) => .error (.wideInteger wide.value)
      | none => wrong "an integer")
  else if tag == .ofKind "float" then
    some (match floatOf? text.toList with
      | some bits => .ok (.float (UInt64.ofNat bits))
      | none => wrong "a float")
  else if tag == .ofKind "null" then
    some (if isNullWord text then .ok .null else wrong "null")
  else none

/-- The value of a scalar without regard to a tag. -/
def naturalValue (text : String) (plain : Bool) : Except Defect Value :=
  if plain then
    match plainValue text with
    | .ok v => .ok v
    | .error wide => .error (.wideInteger wide.value)
  else .ok (.text text)

/-- The value of a scalar. A local tag leaves it as it is, whether the tag has a name or not; any
other tag that asks for no kind of value makes it a text. -/
def scalarValue (tag : Option Tag) (text : String) (plain : Bool) : Except Defect Value :=
  match tag with
  | none => naturalValue text plain
  | some t =>
    if t.isLocal then (naturalValue text plain).map (wrap tag)
    else (forcedValue? t text).getD (.ok (.text text))

/-- The place of a mapping's value, by the event of its key. -/
def placeOf (parent : Place) : NodeEvent → Place
  | .scalar _ text _ => .entry parent text
  | _ => .unnamed parent

/-- An alias is followed once more. -/
def countJump (d : Document) : Load Unit := do
  modify fun p => { p with jumps := p.jumps + 1 }
  if d.events.size * 100 < (← get).jumps then throw .tooManyAliases

mutual

/-- The value at the position; `depth` more collections may be opened. -/
def value (d : Document) : Nat → Place → Nat → Load Value
  | 0, _, _ => throw .syntaxError
  | limit + 1, place, depth => do
    let (e, m) ← d.peek
    pass
    match e with
    | .alias anchor => do
      d.countJump
      match d.anchors.lookup anchor with
      | none => throw .syntaxError
      | some target => do
        let after := (← get).position
        modify fun p => { p with position := target }
        let v ← d.value limit (.aliased place) depth
        modify fun p => { p with position := after }
        pure v
    | .scalar tag text plain =>
      match scalarValue tag text plain with
      | .ok v => pure v
      | .error what => throw (.defect place m what)
    | .sequenceStart tag =>
      match depth with
      | 0 => throw (.tooDeep m)
      | depth + 1 => do
        let items ← d.items limit place depth 0
        pure (wrap tag (.sequence items))
    | .mappingStart tag =>
      match depth with
      | 0 => throw (.tooDeep m)
      | depth + 1 => do
        let entries ← d.entries limit place m depth []
        pure (wrap tag (.mapping entries))
    | .sequenceEnd => throw .syntaxError
    | .mappingEnd => throw .syntaxError
termination_by structural limit => limit

/-- The items of a sequence from the one with an index on. -/
def items (d : Document) : Nat → Place → Nat → Nat → Load (List Value)
  | 0, _, _, _ => throw .syntaxError
  | limit + 1, place, depth, index => do
    let (e, _) ← d.peek
    match e with
    | .sequenceEnd => do
      pass
      pure []
    | _ => do
      let v ← d.value limit (.item place index) depth
      let rest ← d.items limit place depth (index + 1)
      pure (v :: rest)
termination_by structural limit => limit

/-- The entries of a mapping after those in `seen`, with them. A key may stand once. -/
def entries (d : Document) : Nat → Place → Mark → Nat → List (Value × Value) →
    Load (List (Value × Value))
  | 0, _, _, _, _ => throw .syntaxError
  | limit + 1, place, m, depth, seen => do
    let (e, _) ← d.peek
    match e with
    | .mappingEnd => do
      pass
      pure seen
    | _ => do
      let key ← d.value limit place depth
      match Value.equalKey? seen key with
      | some first => throw (.defect place m (.duplicateKey first))
      | none => do
        let v ← d.value limit (placeOf place e) depth
        d.entries limit place m depth (seen ++ [(key, v)])
termination_by structural limit => limit

end

/-- The value of a document. A path through its events opens at most `depthLimit` collections and
goes along each of them once. -/
def load (d : Document) : Except Error Value := do
  let limit := (depthLimit + 2) * (d.events.size + 2)
  let (v, _) ← (d.value limit .root depthLimit).run ⟨0, 0⟩
  match d.failure with
  | some e => .error e
  | none => if d.isLast then .ok v else .error .manyDocuments

end Document

/-- The value of a text, which must hold at most one document. -/
def Value.ofString (s : String) : Except Error Value := (Document.ofString s).load

end QueryTree.Yaml
