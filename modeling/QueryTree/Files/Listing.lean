import QueryTree.Files.Item
import QueryTree.Text.Bytes

/-!
# The files below a folder

A walk through a folder finds the files at any depth. What the walk skips is decided name by name:
a skipped file is not listed, and nothing below a skipped folder is looked at. The folder where the
walk begins is not asked about.
-/

namespace QueryTree.Files

/-- What a walk skips, by the names that lead there and by whether a folder is there. -/
abbrev Skip := List String → Bool → Bool

namespace Item

mutual

/-- The files of an item that the names lead to, each by the names that lead to it. -/
def found (skip : Skip) (names : List String) : Item → List (List String)
  | .file _ => if skip names false then [] else [names]
  | .folder items => if skip names true then [] else foundAmong skip names items

/-- The files of a folder's items. -/
def foundAmong (skip : Skip) (names : List String) : List (String × Item) → List (List String)
  | [] => []
  | (name, item) :: rest => item.found skip (names ++ [name]) ++ foundAmong skip names rest

end

/-- The files below a folder, in the order of their names. -/
def filesBelow (skip : Skip) (keep : List String → Bool) (folder : Item) : List (List String) :=
  ((foundAmong skip [] folder.items).filter keep).mergeSort fun a b => !Text.namesPrecede b a

end Item

end QueryTree.Files
