import QueryTree.Yaml.Cursor

/-!
# YAML tokens

The units that a YAML text is cut into before its structure is known. Block structure, which the
text shows by indentation, has tokens of its own.
-/

namespace QueryTree.Yaml

/-- What a token is. -/
inductive TokenKind where
  | streamStart
  | streamEnd
  | versionDirective (major minor : Nat)
  | tagDirective (handle : String) (expansion : List UInt8)
  | documentStart
  | documentEnd
  | blockSequenceStart
  | blockMappingStart
  | blockEnd
  | flowSequenceStart
  | flowSequenceEnd
  | flowMappingStart
  | flowMappingEnd
  | blockEntry
  | flowEntry
  | key
  | value
  | alias (name : String)
  | anchor (name : String)
  | tag (handle : String) (suffix : List UInt8)
  /-- A scalar; `plain` if it stands without quotes and is no block scalar. -/
  | scalar (text : String) (plain : Bool)
  deriving Repr, DecidableEq

/-- A token and the places where it begins and ends. -/
structure Token where
  kind : TokenKind
  start : Mark
  stop : Mark
  deriving Repr, DecidableEq

end QueryTree.Yaml
