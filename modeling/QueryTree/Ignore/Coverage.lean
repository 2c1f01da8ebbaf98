import QueryTree.Files.Listing
import QueryTree.Files.Place
import QueryTree.Ignore.Rule
import QueryTree.Ignore.Sight

/-!
# Which files are ignored

Every folder may hold ignore files of three kinds: `.ficumignore` comes before `.ignore`, and that
before `.gitignore`. What a kind says of a file is said by the nearest folder around the file whose
rules of that kind apply; what the first kind that says anything says, holds. The rules of
`.gitignore` count only within a repository, and only up to the folder that is one.
-/

namespace QueryTree.Ignore

open QueryTree.Files (Item Place Skip)

/-- The rules that the ignore files of one folder hold. -/
structure FolderRules where
  /-- Those of `.ficumignore`. -/
  own : Rules
  /-- Those of `.ignore`. -/
  general : Rules
  /-- Those of `.gitignore`. -/
  repository : Rules
  /-- The folder is a repository. -/
  isRepository : Bool

namespace FolderRules

/-- No rules. -/
def none : FolderRules := ⟨[], [], [], false⟩

/-- The rules of a file in a folder. -/
def rulesOf (folder : Item) (name : String) : Rules :=
  match folder.content? name with
  | some content => Rules.ofContent content
  | .none => []

/-- The rules of a folder. -/
def ofFolder (folder : Item) : FolderRules :=
  ⟨rulesOf folder ".ficumignore", rulesOf folder ".ignore", rulesOf folder ".gitignore",
    (folder.child? ".git").isSome || (folder.child? ".jj").isSome⟩

end FolderRules

/-- The rules of the folders around a file, the innermost first. Each folder comes with the path of
the file as its rules see it. -/
abbrev Surrounding := List (FolderRules × List UInt8)

namespace Surrounding

/-- What the nearest rules of a kind say. -/
def verdict? (kind : FolderRules → Rules) (s : Surrounding) (isFolder : Bool) : Option Verdict :=
  s.findSome? fun (rules, path) => (kind rules).verdict? path isFolder

/-- The folders up to the innermost one that is a repository; none if there is no such folder. -/
def withinRepository? : Surrounding → Option Surrounding
  | [] => none
  | folder :: rest =>
    if folder.1.isRepository then some [folder] else (withinRepository? rest).map (folder :: ·)

/-- What the rules say. -/
def judge (s : Surrounding) (isFolder : Bool) : Option Verdict :=
  s.verdict? FolderRules.own isFolder
    <|> s.verdict? FolderRules.general isFolder
    <|> (s.withinRepository?.getD []).verdict? FolderRules.repository isFolder

end Surrounding

/-- The rules of a folder and of the folders below it. -/
inductive RuleTree where
  | node (here : FolderRules) (below : List (String × RuleTree))

namespace RuleTree

/-- No rules. -/
def none : RuleTree := .node .none []

mutual

/-- The rules of a folder and of the folders below it; a file has none. -/
def ofItem : Item → RuleTree
  | .file _ => .none
  | .folder items => .node (.ofFolder (.folder items)) (ofItems items)

/-- The rules below a folder. -/
def ofItems : List (String × Item) → List (String × RuleTree)
  | [] => []
  | (name, item) :: rest => (name, ofItem item) :: ofItems rest

end

/-- The rules around what the names lead to. It goes by `path`, and the folder where the tree begins by
`folder`. -/
def surrounding (path : List UInt8) : RuleTree → String → List String → Surrounding
  | _, _, [] => []
  | .node here below, folder, name :: names =>
    surrounding path ((below.lookup name).getD .none) (Place.pathTo folder name) names
      ++ [(here, seenFrom (Text.bytes folder) path)]

end RuleTree

/-- The rules for what is below a place: those from there on, with the path that the place goes by,
and those of the folders around the place, each with the names that lead to the place. -/
structure Coverage where
  within : RuleTree
  path : String
  around : List (FolderRules × List String)

namespace Coverage

/-- The rules of the folders around, with the names that lead on from them. -/
def aroundOf (names : List String) : List (Item × String) → List (FolderRules × List String)
  | [] => []
  | (folder, name) :: rest => (.ofFolder folder, name :: names) :: aroundOf (name :: names) rest

/-- The rules for what is below a place that goes by a path. -/
def ofPlace (p : Place) (path : String) : Coverage := ⟨.ofItem p.item, path, aroundOf [] p.around⟩

/-- The rules around what the names lead to. The folders around the place see it by names. -/
def surrounding (c : Coverage) (names : List String) : Surrounding :=
  c.within.surrounding (Text.bytes (Place.pathBelow c.path names)) c.path names
    ++ c.around.map fun (rules, way) => (rules, Text.joined slash ((way ++ names).map Text.bytes))

/-- What is ignored below the place. -/
def skips (c : Coverage) : Skip := fun names isFolder =>
  (c.surrounding names).judge isFolder == some .ignored

end Coverage

end QueryTree.Ignore
