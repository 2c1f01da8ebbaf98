/-!
# Patterns of bytes

Regular expressions over bytes. Whether one matches is found byte by byte: reading a byte leaves a
list of patterns, one of which has to match the rest, and at the end one of the patterns that are
left has to match nothing. The patterns that can be left are parts of the first one, so their number
stays small.
-/

namespace QueryTree.Ignore

/-- A set of bytes: those in one of some ranges, or those in none of them. -/
structure ByteSet where
  /-- The ranges, with both ends. -/
  ranges : List (UInt8 × UInt8)
  /-- The bytes outside of the ranges are meant. -/
  negated : Bool
  deriving DecidableEq

namespace ByteSet

/-- The set has the byte. -/
def contains (s : ByteSet) (b : UInt8) : Bool :=
  s.ranges.any (fun r => r.1 ≤ b && b ≤ r.2) != s.negated

/-- One byte. -/
def single (b : UInt8) : ByteSet := ⟨[(b, b)], false⟩

/-- Every byte. -/
def all : ByteSet := ⟨[], true⟩

/-- Every byte but one. -/
def allBut (b : UInt8) : ByteSet := ⟨[(b, b)], true⟩

end ByteSet

/-- A regular expression over bytes. -/
inductive Pattern where
  /-- Matches the empty list of bytes. -/
  | empty
  /-- Matches one byte of a set. -/
  | byte (set : ByteSet)
  /-- Matches what one pattern matches and then what another matches. -/
  | seq (first second : Pattern)
  /-- Matches what one of two patterns matches. -/
  | either (first second : Pattern)
  /-- Matches what a pattern matches any number of times. -/
  | many (pattern : Pattern)
  deriving DecidableEq

namespace Pattern

/-- One pattern after another; an empty one is left out. -/
def andThen (p q : Pattern) : Pattern :=
  match p, q with
  | .empty, q => q
  | p, .empty => p
  | p, q => .seq p q

/-- Patterns one after another. -/
def sequence (ps : List Pattern) : Pattern := ps.foldr andThen .empty

/-- Some bytes, one after another. -/
def ofBytes (bs : List UInt8) : Pattern := sequence (bs.map fun b => .byte (.single b))

/-- One of some patterns; without any, nothing is asked for. -/
def choice : List Pattern → Pattern
  | [] => .empty
  | [p] => p
  | p :: ps => .either p (choice ps)

/-- The pattern matches the empty list. -/
def matchesEmpty : Pattern → Bool
  | .empty => true
  | .byte _ => false
  | .seq p q => p.matchesEmpty && q.matchesEmpty
  | .either p q => p.matchesEmpty || q.matchesEmpty
  | .many _ => true

/-- The patterns of which one has to match what follows a byte. -/
def after (b : UInt8) : Pattern → List Pattern
  | .empty => []
  | .byte set => if set.contains b then [.empty] else []
  | .seq p q => (p.after b).map (andThen · q) ++ if p.matchesEmpty then q.after b else []
  | .either p q => p.after b ++ q.after b
  | .many p => (p.after b).map (andThen · (.many p))

/-- One of the patterns matches. -/
def someMatches : List Pattern → List UInt8 → Bool
  | ps, [] => ps.any matchesEmpty
  | ps, b :: bs => someMatches (ps.flatMap (after b)).eraseDups bs

/-- The pattern matches the bytes, all of them. -/
def isMatch (p : Pattern) (bs : List UInt8) : Bool := someMatches [p] bs

end Pattern

end QueryTree.Ignore
