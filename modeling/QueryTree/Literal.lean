import QueryTree.Calendar.DateTime
import QueryTree.Number.Format

/-!
# Literals

The typed scalars that selectors are compared with. Numbers keep their width: the integers have 8,
16, 32 and 64 bits, and the floating point numbers are kept as bit patterns. A calendar and an
instant are both date-times; they differ in how midnight is written.
-/

namespace QueryTree

open QueryTree.Calendar

/-- A literal. -/
inductive Literal where
  | bool (value : Bool)
  | byte (value : Int8)
  | short (value : Int16)
  | int (value : Int32)
  | long (value : Int64)
  | float (bits : UInt32)
  | double (bits : UInt64)
  /-- A date-time that is written as a date when it is midnight. -/
  | calendar (value : DateTime)
  | date (value : Date)
  /-- A date-time that is always written in full. -/
  | instant (value : DateTime)
  /-- The name of a member of an enumeration. -/
  | name (value : String)
  | text (value : String)
  /-- A value of which only its string form is known. -/
  | opaqueForm (form : String)
  deriving DecidableEq

namespace Literal

/-- Equality of literals. Kinds are never mixed, floating point numbers are compared as numbers, and
date-times as instants. -/
def same : Literal → Literal → Bool
  | bool a, bool b => a == b
  | byte a, byte b => a == b
  | short a, short b => a == b
  | int a, int b => a == b
  | long a, long b => a == b
  | float a, float b => Number.Format.single.equal a.toNat b.toNat
  | double a, double b => Number.Format.double.equal a.toNat b.toNat
  | calendar a, calendar b => a.sameInstant b
  | date a, date b => a == b
  | instant a, instant b => a.sameInstant b
  | name a, name b => a == b
  | text a, text b => a == b
  | opaqueForm a, opaqueForm b => a == b
  | _, _ => false

end Literal

end QueryTree
