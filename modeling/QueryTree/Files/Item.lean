/-!
# Files and folders

A file is its content, a folder its items with their names. A folder holds at most one item of a
name; where a list has a name twice, the first item counts.
-/

namespace QueryTree.Files

/-- A file or a folder. -/
inductive Item where
  /-- A file with its bytes. -/
  | file (content : List UInt8)
  /-- A folder with its items. -/
  | folder (items : List (String × Item))

namespace Item

/-- A folder that holds nothing. -/
def empty : Item := .folder []

/-- The items of a folder; a file has none. -/
def items : Item → List (String × Item)
  | .file _ => []
  | .folder items => items

/-- The item is a folder. -/
def isFolder : Item → Bool
  | .file _ => false
  | .folder _ => true

/-- The item of a name. -/
def child? (item : Item) (name : String) : Option Item := item.items.lookup name

/-- The content of the file of a name, if it is a file. -/
def content? (item : Item) (name : String) : Option (List UInt8) :=
  match item.child? name with
  | some (.file content) => some content
  | _ => none

end Item

end QueryTree.Files
