import QueryTree.Ignore.Glob
import QueryTree.Text.Space
import QueryTree.Text.Split

/-!
# Rules of what to ignore

An ignore file has a rule on each line. A rule says which of the files and folders below the folder
of its file are ignored, or, with an exclamation mark, which are kept after all. Of the rules of one
file the last that applies decides. Lines that are blank, begin with a number sign or hold no glob
have no rule.
-/

namespace QueryTree.Ignore

/-- What rules say of a file or folder. -/
inductive Verdict where
  | ignored
  | kept
  deriving DecidableEq

/-- A rule. -/
structure Rule where
  /-- The paths to which it applies, seen from the folder of the rule. -/
  pattern : Pattern
  /-- What it says of them. -/
  verdict : Verdict
  /-- It applies to folders only. -/
  folderOnly : Bool

namespace Rule

/-- The list ends with the given one. -/
def endsWith (cs ending : List Char) : Bool := ending.isSuffixOf cs

/-- A glob that is to match at any depth, unless it says so already. -/
def atAnyDepth (glob : List Char) : List Char :=
  if "**/".toList.isPrefixOf glob ∨ glob = "**".toList then glob else "**/".toList ++ glob

/-- A glob that ends with two stars matches what is in a folder, and not the folder. -/
def insideOnly (glob : List Char) : List Char :=
  if endsWith glob "/**".toList then glob ++ "/*".toList else glob

/-- The line without a slash at its end, for which a backslash before it goes too. -/
def withoutLastSlash (line : List Char) : List Char :=
  let line := line.dropLast
  if line.getLast? = some '\\' then line.dropLast else line

/-- The rule of a line after the signs at its beginning. A rule that is `anchored`, or has a slash
before its end, applies to the whole path, any other to the end of the path. -/
def ofGlob? (verdict : Verdict) (anchored : Bool) (line : List Char) : Option Rule :=
  let folderOnly := line.getLast? = some '/'
  let glob := if folderOnly then withoutLastSlash line else line
  let glob := if !anchored && !glob.contains '/' then atAnyDepth glob else glob
  (Pattern.ofGlob? (insideOnly glob)).map fun pattern => ⟨pattern, verdict, folderOnly⟩

/-- The rule of a line without white space at its end. -/
def ofTrimmed? : List Char → Option Rule
  | '\\' :: '!' :: rest => ofGlob? .ignored false ('!' :: rest)
  | '\\' :: '#' :: rest => ofGlob? .ignored false ('#' :: rest)
  | '!' :: '/' :: rest => ofGlob? .kept true rest
  | '!' :: rest => ofGlob? .kept false rest
  | '/' :: rest => ofGlob? .ignored true rest
  | line => ofGlob? .ignored false line

/-- The rule of a line, if it has one. White space at its end is left out, unless a backslash stands
before the last space. -/
def ofLine? (line : List Char) : Option Rule :=
  if line.head? = some '#' then none
  else
    let line := if endsWith line "\\ ".toList then line else Text.dropTrailing line
    if line.isEmpty then none else ofTrimmed? line

/-- The rule applies to a path of a file or folder. -/
def applies (r : Rule) (path : List UInt8) (isFolder : Bool) : Bool :=
  (!r.folderOnly || isFolder) && r.pattern.isMatch path

end Rule

/-- The rules of a file, in their order. -/
abbrev Rules := List Rule

namespace Rules

/-- Lines between line feeds. A carriage return before a line feed belongs to the end of the line; the
last line has no end. -/
def withoutReturns : List (List UInt8) → List (List UInt8)
  | [] => []
  | [last] => [last]
  | line :: rest =>
    (if line.getLast? = some 0x0D then line.dropLast else line) :: withoutReturns rest

/-- The lines of a file as far as they are texts. -/
def linesOf (content : List UInt8) : List (List Char) :=
  (((withoutReturns (Text.split 0x0A content)).map Text.ofBytes?).takeWhile Option.isSome).filterMap
    fun line => line.map String.toList

/-- Lines without the byte order marks before the first one. -/
def withoutMark : List (List Char) → List (List Char)
  | [] => []
  | line :: lines => line.dropWhile (· = '\uFEFF') :: lines

/-- The rules of an ignore file. -/
def ofContent (content : List UInt8) : Rules :=
  (withoutMark (linesOf content)).filterMap Rule.ofLine?

/-- What the last rule that applies says of a path. -/
def verdict? (rules : Rules) (path : List UInt8) (isFolder : Bool) : Option Verdict :=
  (rules.reverse.find? fun r => r.applies path isFolder).map Rule.verdict

end Rules

end QueryTree.Ignore
