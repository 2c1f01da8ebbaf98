import QueryTree.Text.Digits
import QueryTree.Text.Printable

/-!
# Quoted texts

A text between double quotes, in the form that messages and structural descriptions use. The quote
and the backslash are escaped, the common controls have their letter, and every other character that
is not printable is written by its code point.
-/

namespace QueryTree.Text

/-- One character inside a quoted text. -/
def quoteChar (c : Char) : List Char :=
  if c = '\x00' then ['\\', '0']
  else if c = '\t' then ['\\', 't']
  else if c = '\r' then ['\\', 'r']
  else if c = '\n' then ['\\', 'n']
  else if c = '\\' then ['\\', '\\']
  else if c = '"' then ['\\', '"']
  else if isPrintable c then [c]
  else ['\\', 'u', '\x7b'] ++ Nat.toDigits 16 c.toNat ++ ['\x7d']

/-- A text between double quotes, with escapes. -/
def quoted (s : String) : String :=
  String.ofList (['"'] ++ s.toList.flatMap quoteChar ++ ['"'])

end QueryTree.Text
