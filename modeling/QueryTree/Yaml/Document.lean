import QueryTree.Yaml.Error
import QueryTree.Yaml.Event.Machine

/-!
# The first document of a YAML text

The events of the nodes of the first document, with the anchors resolved to numbers. The events end
early where the text is not well-formed or an alias has no anchor; what comes before that is kept,
since a fault in it is reported first.
-/

namespace QueryTree.Yaml

/-- An event of a node. -/
inductive NodeEvent where
  /-- The anchor with a number. -/
  | alias (anchor : Nat)
  | scalar (tag : Option Tag) (text : String) (plain : Bool)
  | sequenceStart (tag : Option Tag)
  | sequenceEnd
  | mappingStart (tag : Option Tag)
  | mappingEnd
  deriving Repr, DecidableEq

/-- The events of a document. -/
structure Document where
  events : Array (NodeEvent × Mark)
  /-- Which event an anchor stands before, by the number of the anchor; the first entry counts. -/
  anchors : List (Nat × Nat)
  /-- Why the events end early. -/
  failure : Option Error
  /-- The machine after the document. -/
  machine : Machine

namespace Document

/-- A document in the making: its events, the numbers of its anchors' names, and the anchors. -/
structure Draft where
  events : Array (NodeEvent × Mark)
  names : List (String × Nat)
  anchors : List (Nat × Nat)

/-- A node begins; its anchor gets the number of the names known before it. -/
def Draft.begin (d : Draft) (anchor : Option String) (e : NodeEvent) (m : Mark) : Draft :=
  match anchor with
  | none => { d with events := d.events.push (e, m) }
  | some name =>
    let number := d.names.length
    { events := d.events.push (e, m)
      names := (name, number) :: d.names.filter (·.1 != name)
      anchors := (number, d.events.size) :: d.anchors }

/-- The document of a draft. -/
def Draft.finish (d : Draft) (failure : Option Error) (machine : Machine) : Document :=
  ⟨d.events, d.anchors, failure, machine⟩

/-- The events up to the end of the document. -/
def collect : Nat → Draft → Machine → Document
  | 0, d, machine => d.finish (some .syntaxError) machine
  | limit + 1, d, machine =>
    match Machine.step machine with
    | none => d.finish (some .syntaxError) machine
    | some (⟨kind, m⟩, machine) =>
      match kind with
      | .streamStart => collect limit d machine
      | .documentStart => collect limit d machine
      | .documentEnd => d.finish none machine
      | .streamEnd =>
        if d.events.isEmpty then (d.begin none (.scalar none "" true) m).finish none machine
        else d.finish none machine
      | .alias name =>
        match d.names.lookup name with
        | some number => collect limit (d.begin none (.alias number) m) machine
        | none => d.finish (some (.unknownAnchor m)) machine
      | .scalar p text plain =>
        collect limit (d.begin p.anchor (.scalar p.tag text plain) m) machine
      | .sequenceStart p => collect limit (d.begin p.anchor (.sequenceStart p.tag) m) machine
      | .sequenceEnd => collect limit (d.begin none .sequenceEnd m) machine
      | .mappingStart p => collect limit (d.begin p.anchor (.mappingStart p.tag) m) machine
      | .mappingEnd => collect limit (d.begin none .mappingEnd m) machine

/-- The first document of a text. No text has more events than eight for each of its characters and
a few for itself. -/
def ofString (s : String) : Document :=
  let cs := s.toList
  collect (8 * cs.length + 16) ⟨#[], [], []⟩ (Machine.ofChars cs)

/-- Nothing but the end of the text comes after the document. -/
def isLast (d : Document) : Bool :=
  d.machine.state == .nothing ||
    match Machine.step d.machine with
    | some (⟨.streamEnd, _⟩, _) => true
    | _ => false

end Document

end QueryTree.Yaml
