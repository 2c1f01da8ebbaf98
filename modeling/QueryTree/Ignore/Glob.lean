import QueryTree.Ignore.Pattern
import QueryTree.Text.Bytes

/-!
# Globs

A glob describes paths: a question mark stands for one byte, a star for any number of bytes, neither
for a slash. Brackets stand for one of some characters, braces for one of some globs between commas,
and a backslash takes away the meaning of the character after it. Two stars that stand alone between
slashes stand for any number of folders.

A glob is read in two steps. The first finds its signs; the second joins them to a pattern and
settles what two stars mean where they stand. An opening bracket without a closing one is a plain
character, and so are all brackets after it.
-/

namespace QueryTree.Ignore

/-- The byte between the names of a path. -/
def slash : UInt8 := 0x2F

/-! ### Characters in brackets -/

/-- The part of a bracket that has been read: its ranges, the last first, and whether a hyphen after
them waits for the end of a range. -/
structure BracketDraft where
  ranges : List (Char × Char)
  hyphen : Bool

namespace BracketDraft

/-- One more character. The first one is taken as it is. A range must not end before it begins. -/
def add (d : BracketDraft) (c : Char) : Option BracketDraft :=
  match d.ranges with
  | [] => some ⟨[(c, c)], false⟩
  | (first, _) :: more =>
    if d.hyphen then if c < first then none else some ⟨(first, c) :: more, false⟩
    else if c = '-' then some ⟨d.ranges, true⟩
    else some ⟨(c, c) :: d.ranges, false⟩

/-- A range of characters as ranges of bytes: the bytes of both characters, and what lies between the
last byte of the one and the first byte of the other. -/
def byteRanges (range : Char × Char) : List (UInt8 × UInt8) :=
  let first := Text.bytes (String.singleton range.1)
  let last := Text.bytes (String.singleton range.2)
  if range.1 = range.2 then first.map fun b => (b, b)
  else
    match first.getLast?, last with
    | some a, b :: more =>
      first.dropLast.map (fun b => (b, b)) ++ (a, b) :: more.map fun b => (b, b)
    | _, _ => []

/-- The bytes for which the bracket stands; a hyphen at the end stands for itself. -/
def set (d : BracketDraft) (negated : Bool) : ByteSet :=
  ⟨(if d.hyphen then ('-', '-') :: d.ranges else d.ranges).flatMap byteRanges, negated⟩

end BracketDraft

/-- What is found after an opening bracket. -/
inductive Bracket where
  /-- A set of bytes, and what stands after the closing bracket. -/
  | closed (set : ByteSet) (rest : List Char)
  /-- No closing bracket. -/
  | unclosed
  /-- A range that ends before it begins. -/
  | reversed

namespace Bracket

/-- The bracket whose beginning has been read. -/
def readFrom (negated : Bool) (d : BracketDraft) : List Char → Bracket
  | [] => .unclosed
  | c :: rest =>
    if c = ']' ∧ !d.ranges.isEmpty then .closed (d.set negated) rest
    else
      match d.add c with
      | none => .reversed
      | some d => readFrom negated d rest

/-- The bracket after its opening sign. -/
def read : List Char → Bracket
  | '!' :: rest => readFrom true ⟨[], false⟩ rest
  | '^' :: rest => readFrom true ⟨[], false⟩ rest
  | cs => readFrom false ⟨[], false⟩ cs

theorem length_of_readFrom {negated : Bool} {d : BracketDraft} {cs rest : List Char} {s : ByteSet}
    (h : readFrom negated d cs = .closed s rest) : rest.length < cs.length := by
  induction cs generalizing d with
  | nil => simp [readFrom] at h
  | cons c cs ih =>
    rw [readFrom] at h
    split at h
    · cases h; simp
    · split at h
      · cases h
      · exact Nat.lt_succ_of_lt (ih h)

/-- What stands after a bracket is shorter than what stands after its opening sign. -/
theorem length_of_read {cs rest : List Char} {s : ByteSet} (h : read cs = .closed s rest) :
    rest.length < cs.length := by
  unfold read at h
  split at h
  · exact Nat.lt_succ_of_lt (length_of_readFrom h)
  · exact Nat.lt_succ_of_lt (length_of_readFrom h)
  · exact length_of_readFrom h

end Bracket

/-! ### Signs -/

/-- A sign of a glob. -/
inductive Sign where
  /-- A character that stands for itself, with a backslash before it or without. -/
  | char (c : Char) (escaped : Bool)
  /-- A question mark. -/
  | question
  /-- A star. -/
  | star
  /-- A bracket. -/
  | bracket (set : ByteSet)
  /-- An opening brace. -/
  | opening
  /-- A closing brace. -/
  | closing
  /-- A comma. -/
  | comma

namespace Sign

/-- The signs of a glob; `brackets` says whether an opening bracket is a sign. A backslash at the end
and a range that ends before it begins are no signs. -/
def read (brackets : Bool) : List Char → Option (List Sign)
  | [] => some []
  | '?' :: rest => (read brackets rest).map (.question :: ·)
  | '*' :: rest => (read brackets rest).map (.star :: ·)
  | '\x7b' :: rest => (read brackets rest).map (.opening :: ·)
  | '\x7d' :: rest => (read brackets rest).map (.closing :: ·)
  | ',' :: rest => (read brackets rest).map (.comma :: ·)
  | ['\\'] => none
  | '\\' :: c :: rest => (read brackets rest).map (.char c true :: ·)
  | '[' :: rest =>
    if brackets then
      match h : Bracket.read rest with
      | .closed set after =>
        have := Bracket.length_of_read h
        (read true after).map (.bracket set :: ·)
      | .unclosed => (read false rest).map (.char '[' false :: ·)
      | .reversed => none
    else (read false rest).map (.char '[' false :: ·)
  | c :: rest => (read brackets rest).map (.char c false :: ·)
termination_by cs => cs.length

/-- The character at the end of the sign. -/
def lastChar : Sign → Char
  | .char c _ => c
  | .question => '?'
  | .star => '*'
  | .bracket _ => ']'
  | .opening => '\x7b'
  | .closing => '\x7d'
  | .comma => ','

end Sign

/-! ### Patterns -/

/-- A part of a glob. -/
inductive GlobPart where
  /-- Two stars at the beginning: any folders, or none. -/
  | leading
  /-- Two stars at the end: anything below. -/
  | trailing
  /-- Any other part. -/
  | plain (pattern : Pattern)

namespace GlobPart

/-- Any bytes. -/
def anything : Pattern := .many (.byte .all)

/-- Any bytes without a slash. -/
def run : GlobPart := .plain (.many (.byte (.allBut slash)))

/-- Two stars between two slashes: a slash, or any folders between two. -/
def between : GlobPart :=
  .plain (.either (.byte (.single slash))
    (.sequence [.byte (.single slash), anything, .byte (.single slash)]))

/-- The pattern of a part. -/
def pattern : GlobPart → Pattern
  | .leading =>
    .choice [.empty, .byte (.single slash), .seq anything (.byte (.single slash))]
  | .trailing => .seq (.byte (.single slash)) anything
  | .plain p => p

/-- The pattern of some parts, the last first. -/
def patternOf (parts : List GlobPart) : Pattern := .sequence (parts.reverse.map pattern)

/-- Parts, the last first, of which the last one gives way to stars that follow it. Stars after stars
of the same effect change nothing. -/
def replaceLast (part : GlobPart) : List GlobPart → List GlobPart
  | .leading :: parts => .leading :: parts
  | .trailing :: parts => .trailing :: parts
  | _ :: parts => part :: parts
  | [] => [part]

end GlobPart

/-- Braces that are open: what stands before them, the last first, and the globs between the commas
that have been read. -/
structure OpenBraces where
  before : List GlobPart
  choices : List Pattern

/-- The part of a glob that has been read: the parts since the last brace or comma, the last first,
and the braces that are open, the innermost first. -/
structure GlobDraft where
  parts : List GlobPart
  braces : List OpenBraces

namespace GlobDraft

/-- One more part. -/
def push (d : GlobDraft) (part : GlobPart) : GlobDraft := { d with parts := part :: d.parts }

/-- Stars in place of the last part. -/
def replaceLast (d : GlobDraft) (part : GlobPart) : GlobDraft :=
  { d with parts := GlobPart.replaceLast part d.parts }

/-- A brace is opened. -/
def opened (d : GlobDraft) : GlobDraft := ⟨[], ⟨d.parts, []⟩ :: d.braces⟩

/-- A comma: it stands for itself outside of braces. -/
def comma (d : GlobDraft) : GlobDraft :=
  match d.braces with
  | [] => d.push (.plain (.ofBytes (Text.bytes ",")))
  | b :: outer => ⟨[], { b with choices := GlobPart.patternOf d.parts :: b.choices } :: outer⟩

/-- A brace is closed. Choices that ask for nothing are left out. -/
def closed? (d : GlobDraft) : Option GlobDraft :=
  match d.braces with
  | [] => none
  | b :: outer =>
    let choices := (GlobPart.patternOf d.parts :: b.choices).filter (· ≠ .empty)
    some ⟨.plain (.choice choices.reverse) :: b.before, outer⟩

/-- Two stars may have a meaning of their own after this character. -/
def standsAlone (d : GlobDraft) (previous : Option Char) : Bool :=
  previous == some '/'
    || (!d.braces.isEmpty && (previous == some ',' || previous == some '\x7b'))

/-- One more sign that is not a star. -/
def add? (d : GlobDraft) : Sign → Option GlobDraft
  | .char c _ => some (d.push (.plain (.ofBytes (Text.bytes (String.singleton c)))))
  | .question => some (d.push (.plain (.byte (.allBut slash))))
  | .star => some (d.push .run)
  | .bracket set => some (d.push (.plain (.byte set)))
  | .opening => some d.opened
  | .closing => d.closed?
  | .comma => some d.comma

/-- The signs after a character are added. -/
def addAll? (d : GlobDraft) (previous : Option Char) : List Sign → Option GlobDraft
  | [] => some d
  | .star :: .star :: .char '/' false :: rest =>
    if d.parts.isEmpty then (d.push .leading).addAll? (some '/') rest
    else if d.standsAlone previous then (d.replaceLast .between).addAll? (some '/') rest
    else ((d.push .run).push (.plain (.byte (.single slash)))).addAll? (some '/') rest
  | [.star, .star] =>
    some (if d.parts.isEmpty then d.push .leading
      else if d.standsAlone previous then d.replaceLast .trailing
      else d.push .run)
  | .star :: .star :: sign :: rest =>
    let ends := match sign with
      | .comma => !d.braces.isEmpty
      | .closing => !d.braces.isEmpty
      | _ => false
    let d := if !d.parts.isEmpty && d.standsAlone previous && ends then d.replaceLast .trailing
      else d.push .run
    d.addAll? (some '*') (sign :: rest)
  | sign :: rest => do (← d.add? sign).addAll? (some sign.lastChar) rest

end GlobDraft

namespace Pattern

/-- The pattern of a glob, unless it is no glob. Two stars alone match everything. -/
def ofGlob? (glob : List Char) : Option Pattern := do
  let d ← GlobDraft.addAll? ⟨[], []⟩ none (← Sign.read true glob)
  match d.braces, d.parts with
  | [], [.leading] => some GlobPart.anything
  | [], parts => some (GlobPart.patternOf parts)
  | _, _ => none

end Pattern

end QueryTree.Ignore
