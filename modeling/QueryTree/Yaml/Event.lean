import QueryTree.Yaml.Cursor
import QueryTree.Yaml.Tag

/-!
# YAML events

The structure of a YAML text as a sequence of events: collections have a start and an end, and
documents too.
-/

namespace QueryTree.Yaml

/-- The anchor and the tag of a node; the handle of the tag is already replaced. -/
structure Properties where
  anchor : Option String
  tag : Option Tag
  deriving Repr, DecidableEq

/-- A node without anchor and tag. -/
def Properties.none : Properties := ⟨Option.none, Option.none⟩

/-- What an event is. -/
inductive EventKind where
  | streamStart
  | streamEnd
  | documentStart
  | documentEnd
  | alias (name : String)
  | scalar (properties : Properties) (text : String) (plain : Bool)
  | sequenceStart (properties : Properties)
  | sequenceEnd
  | mappingStart (properties : Properties)
  | mappingEnd
  deriving Repr, DecidableEq

/-- An event and the place where it begins. -/
structure Event where
  kind : EventKind
  mark : Mark
  deriving Repr, DecidableEq

end QueryTree.Yaml
