import QueryTree.Literal
import QueryTree.Calendar.Writing
import QueryTree.Number.Layout

/-!
# Literals in queries

The text of a literal in a query. A long integer ends in `l` and a double in `d`; a floating point
number always shows a fraction; names and texts stand between single quotes as they are. A calendar
that is midnight to the millisecond is written as its date.
-/

namespace QueryTree

open QueryTree.Calendar

/-- A text between single quotes; nothing in it is escaped. -/
def quote (s : String) : List Char := ['\''] ++ s.toList ++ ['\'']

namespace Literal

/-- A calendar: its date at midnight, otherwise the whole date-time. -/
def calendarChars (dt : DateTime) : List Char :=
  if dt.time.isMidnight then dt.date.chars else dt.chars

/-- The characters of a literal. -/
def chars : Literal → List Char
  | bool true => "true".toList
  | bool false => "false".toList
  | byte n => Text.integer n.toInt
  | short n => Text.integer n.toInt
  | int n => Text.integer n.toInt
  | long n => Text.integer n.toInt ++ ['l']
  | float b => Number.Layout.query.write .single b.toNat
  | double b => Number.Layout.query.write .double b.toNat ++ ['d']
  | calendar dt => calendarChars dt
  | date d => d.chars
  | instant dt => dt.chars
  | name s => quote s
  | text s => quote s
  | opaqueForm s => quote s

/-- The text of a literal. -/
def encode (l : Literal) : String := String.ofList l.chars

/-- A text with a literal put after it. -/
def encodeInto (out : String) (l : Literal) : String := out ++ l.encode

end Literal

end QueryTree
