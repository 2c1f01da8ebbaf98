import QueryTree.Files.Place
import QueryTree.Tree.Reading

/-!
# Tree files

A tree file is a path with what was read there, or with the reason why nothing could be read.
Loading it gives the tree that its text describes.
-/

namespace QueryTree

open QueryTree.Files (ReadError)

/-- A path and the bytes that were read there. -/
structure TreeFile where
  path : String
  content : Except ReadError (List UInt8)

/-- Why a file gives no tree. -/
inductive LoadError where
  /-- The file cannot be read. -/
  | unreadable (path : String) (cause : ReadError)
  /-- Its text describes no tree. -/
  | unfit (cause : Tree.ParseError)

/-- What is said of a file that gives no tree. The wording for texts that are not well-formed is
given. -/
def LoadError.message (wording : String → String) : LoadError → String
  | .unreadable path cause => "Failed to read " ++ path ++ ": " ++ cause.message
  | .unfit cause => cause.message wording

namespace TreeFile

/-- The text of the file. -/
def text (f : TreeFile) : Except ReadError String := do
  match Text.ofBytes? (← f.content) with
  | some s => .ok s
  | none => .error .notText

/-- The tree of the file. -/
def load (f : TreeFile) : Except LoadError Tree :=
  match f.text with
  | .error cause => .error (.unreadable f.path cause)
  | .ok s => (Tree.parse s).mapError .unfit

/-- The first of some files that gives no tree, with the reason, or all files with their trees. -/
def loadAll : List TreeFile → Except (String × LoadError) (List (String × Tree))
  | [] => .ok []
  | f :: files =>
    match f.load with
    | .error e => .error (f.path, e)
    | .ok tree => (loadAll files).map ((f.path, tree) :: ·)

end TreeFile

end QueryTree
