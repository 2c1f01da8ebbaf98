import QueryTree.Ignore.Coverage

/-!
# Finding tree files

Tree files are the files whose names end with `.yaml` or `.yml` after something else. Those below a
folder are found at any depth, except for those that are ignored, and listed in the order of their
names. The name of a file in place of a folder finds that file alone, ignored or not.
-/

namespace QueryTree

open QueryTree.Files (Item Place)

/-- The endings of the names of tree files. -/
def treeEndings : List String := [".yaml", ".yml"]

/-- The name is that of a tree file. -/
def isTreeName (name : String) : Bool :=
  treeEndings.any fun ending =>
    ending.toList.isSuffixOf name.toList && ending.length < name.length

namespace Discovery

/-- The names lead to a tree file. -/
def isTreeFile (names : List String) : Bool :=
  match names.getLast? with
  | some name => isTreeName name
  | none => false

/-- The tree files at a place to which a path leads, as paths. -/
def treeFilesAt (p : Place) (path : String) : List String :=
  match p.item with
  | .file _ => if isTreeFile (p.around.take 1 |>.map Prod.snd) then [path] else []
  | .folder _ =>
    let coverage := Ignore.Coverage.ofPlace p path
    (p.item.filesBelow coverage.skips isTreeFile).map (Place.pathBelow path)

/-- The path stands for the input, which holds no files: it begins with a hyphen, and that is its
only component. -/
def standsForInput (path : String) : Bool :=
  path.toList.head? == some '-' && Place.components path == ["-"]

/-- The tree files where a path leads, as paths. Where it leads to nothing there are none. -/
def treeFiles (p : Place) (path : String) : List String :=
  if standsForInput path then []
  else
    match p.resolve path with
    | .ok q => treeFilesAt q path
    | .error _ => []

end Discovery

end QueryTree
