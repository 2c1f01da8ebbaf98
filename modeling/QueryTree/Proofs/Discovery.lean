import QueryTree.Discovery
import QueryTree.Proofs.Files.Path

/-!
# The tree files below a folder

What the search for tree files finds below a folder: the files whose names have the extension of a
tree file (`isTreeName_iff`) and that a walk visits, each once and strictly in the order of their
components, in whatever order the walk comes to them (`Discovery.treeFiles_exact`). A path that
stands for the input finds nothing, also where a folder has that name.
-/

namespace QueryTree

open QueryTree.Files (Item IsName Place Skip)

/-! ### Names of tree files -/

/-- What stands behind the last dot of the name, unless the name begins with that dot. -/
def HasExtension (name extension : String) : Prop :=
  ∃ stem, stem ≠ "" ∧ name = stem ++ "." ++ extension ∧ '.' ∉ extension.toList

theorem hasExtension_iff {name extension : String} (h : '.' ∉ extension.toList) :
    HasExtension name extension ↔
      ("." ++ extension).toList <:+ name.toList ∧ ("." ++ extension).length < name.length := by
  constructor
  · rintro ⟨stem, hstem, rfl, -⟩
    refine ⟨⟨stem.toList, by simp⟩, ?_⟩
    have hpos : 0 < stem.length := by
      rw [← String.length_toList]
      exact List.length_pos_iff.mpr (by simpa using hstem)
    simp only [String.length_append]
    omega
  · rintro ⟨⟨stem, hstem⟩, hlength⟩
    refine ⟨String.ofList stem, ?_, String.toList_inj.mp (by simp [← hstem]), h⟩
    rintro hempty
    rw [String.ofList_eq_empty_iff] at hempty
    subst hempty
    rw [← String.length_toList, ← String.length_toList, ← hstem] at hlength
    exact absurd hlength (by simp)

theorem isTreeName_iff {name : String} :
    isTreeName name = true ↔ HasExtension name "yaml" ∨ HasExtension name "yml" := by
  rw [hasExtension_iff (by decide), hasExtension_iff (by decide)]
  simp only [isTreeName, treeEndings, List.any_cons, List.any_nil, Bool.or_false, Bool.or_eq_true,
    Bool.and_eq_true, List.isSuffixOf_iff_suffix, decide_eq_true_eq]
  rfl

-- the extension is written in small letters, and a name that begins with the dot has none
example : isTreeName "a.YAML" = false ∧ isTreeName ".yaml" = false := by decide

namespace Discovery

/-- The names end with that of a tree file. -/
def EndsAsTree (names : List String) : Prop :=
  ∃ name, names.getLast? = some name ∧ (HasExtension name "yaml" ∨ HasExtension name "yml")

theorem isTreeFile_iff {names : List String} : isTreeFile names = true ↔ EndsAsTree names := by
  unfold isTreeFile EndsAsTree
  cases names.getLast? with
  | none => simp
  | some name => simp [isTreeName_iff]

/-! ### The list of a walk -/

/-- The paths of the tree files among what a walk comes to, in the order of their components. -/
def listed (path : String) (walk : List (List String × Item)) : List String :=
  (((Item.files walk).filter isTreeFile).map (Place.pathBelow path)).mergeSort fun a b =>
    !Place.precedes b a

/-- The paths of the tree files that a walk through the folder visits, strictly in the order of
their components. Nothing brings back a file below a folder that is skipped. -/
structure IsListing (skip : Skip) (folder : Item) (path : String) (paths : List String) : Prop where
  sorted : paths.Pairwise fun a b => Place.precedes a b = true
  nodup : paths.Nodup
  mem_iff : ∀ file, file ∈ paths ↔ ∃ names content, file = Place.pathBelow path names ∧
    Place.components file = Place.components path ++ names ∧ EndsAsTree names ∧
      folder.IsVisited skip names (.file content)
  below_skipped : ∀ dir rest content, folder.Leads (dir ++ rest) (.file content) → dir ≠ [] →
    rest ≠ [] → skip dir true = true → Place.pathBelow path (dir ++ rest) ∉ paths

variable {skip : Skip} {folder : Item} {path : String} {walk : List (List String × Item)}
  {names : List String}

/-- A listing is determined by what it lists. -/
theorem IsListing.unique {paths paths' : List String} (h : IsListing skip folder path paths)
    (h' : IsListing skip folder path paths') : paths = paths' := by
  refine List.Perm.eq_of_pairwise (fun a b _ _ hab hba => ?_) h.sorted h'.sorted ?_
  · rw [Place.precedes, Text.namesPrecede_asymm hab] at hba
    cases hba
  · exact (List.perm_ext_iff_of_nodup h.nodup h'.nodup).mpr fun file =>
      (h.mem_iff file).trans (h'.mem_iff file).symm

theorem mem_listed_iff (path : String) (hproper : folder.IsProper)
    (hwalk : folder.IsWalk skip walk) (file : String) :
    file ∈ listed path walk ↔ ∃ names content, file = Place.pathBelow path names ∧
      Place.components file = Place.components path ++ names ∧ EndsAsTree names ∧
        folder.IsVisited skip names (.file content) := by
  rw [listed, List.mem_mergeSort, List.mem_map]
  constructor
  · rintro ⟨names, hmem, rfl⟩
    obtain ⟨hmem, htree⟩ := List.mem_filter.mp hmem
    obtain ⟨content, hvisited⟩ := hwalk.mem_files_iff.mp hmem
    exact ⟨names, content, rfl, Place.components_pathBelow (hvisited.leads.isName hproper),
      isTreeFile_iff.mp htree, hvisited⟩
  · rintro ⟨names, content, rfl, -, htree, hvisited⟩
    exact ⟨names, List.mem_filter.mpr
      ⟨hwalk.mem_files_iff.mpr ⟨content, hvisited⟩, isTreeFile_iff.mpr htree⟩, rfl⟩

theorem nodup_listed (path : String) (hproper : folder.IsProper) (hwalk : folder.IsWalk skip walk) :
    (listed path walk).Nodup := by
  refine (List.mergeSort_perm _ _).nodup_iff.mpr
    (List.Nodup.map_on (fun names₁ h₁ names₂ h₂ heq => ?_) (hwalk.nodup_files.filter _))
  obtain ⟨content₁, hvisited₁⟩ := hwalk.mem_files_iff.mp (List.mem_of_mem_filter h₁)
  obtain ⟨content₂, hvisited₂⟩ := hwalk.mem_files_iff.mp (List.mem_of_mem_filter h₂)
  exact Place.pathBelow_inj (hvisited₁.leads.isName hproper) (hvisited₂.leads.isName hproper) heq

/-- **Every walk makes the listing**, whatever is skipped and in whatever order it goes. -/
theorem isListing_listed (hproper : folder.IsProper) (hwalk : folder.IsWalk skip walk) :
    IsListing skip folder path (listed path walk) := by
  have hmem := mem_listed_iff path hproper hwalk
  have hnodup := nodup_listed path hproper hwalk
  refine ⟨?_, hnodup, hmem, fun dir rest content hleads hdir hrest hskip hlisted => ?_⟩
  · have hsorted : (listed path walk).Pairwise fun a b => (!Place.precedes b a) = true :=
      List.pairwise_mergeSort Place.not_precedes_trans Place.not_precedes_total _
    refine (hsorted.and hnodup).imp_of_mem fun ha hb ⟨hle, hne⟩ => ?_
    obtain ⟨names₁, -, rfl, hnames₁, -⟩ := (hmem _).mp ha
    obtain ⟨names₂, -, rfl, hnames₂, -⟩ := (hmem _).mp hb
    refine Text.namesPrecede_of_ne hle fun heq => hne ?_
    rw [hnames₁, hnames₂, List.append_cancel_left_eq] at heq
    rw [heq]
  · obtain ⟨names, content', heq, -, -, hvisited⟩ := (hmem _).mp hlisted
    have hnames := Place.pathBelow_inj (hleads.isName hproper)
      (hvisited.leads.isName hproper) heq
    rw [hvisited.way_spared dir rest hnames.symm hdir hrest] at hskip
    cases hskip

/-! ### What is found -/

/-- The files below a folder are those of the walk through its items as they are listed. -/
theorem map_filesBelow_eq_listed {items : List (String × Item)}
    (hproper : (Item.folder items).IsProper) :
    ((Item.folder items).filesBelow skip isTreeFile).map (Place.pathBelow path) =
      listed path (Item.entriesAmong skip [] items) := by
  have hwalk : (Item.folder items).IsWalk skip _ := Item.isWalk_entriesAmong hproper
  rw [Item.filesBelow, Item.items, Item.foundAmong_eq_files, listed]
  refine List.map_mergeSort fun names₁ h₁ names₂ h₂ => ?_
  obtain ⟨content₁, hvisited₁⟩ := hwalk.mem_files_iff.mp (List.mem_of_mem_filter h₁)
  obtain ⟨content₂, hvisited₂⟩ := hwalk.mem_files_iff.mp (List.mem_of_mem_filter h₂)
  rw [Place.precedes_pathBelow (hvisited₂.leads.isName hproper)
    (hvisited₁.leads.isName hproper)]

theorem treeFiles_of_input (h : standsForInput path = true) (p : Place) : treeFiles p path = [] :=
  if_pos h

-- such paths differ from a hyphen by the slashes and dots after it alone
example : ["-", "-/", "-//", "-/.", "-/./"].all standsForInput = true ∧
    ["", "./-", "/-", "-/..", "-/-", "--"].any standsForInput = false := by decide

theorem treeFiles_of_folder {p q : Place} (hpath : standsForInput path = false)
    (hq : p.resolve path = .ok q) {items : List (String × Item)} (hitems : q.item = .folder items) :
    treeFiles p path = (q.item.filesBelow (Ignore.Coverage.ofPlace q path).skips isTreeFile).map
      (Place.pathBelow path) := by
  rw [treeFiles, if_neg (Bool.eq_false_iff.mp hpath), hq]
  show treeFilesAt q path = _
  rw [treeFilesAt, hitems]

theorem isListing_treeFiles {p q : Place} (hpath : standsForInput path = false)
    (hq : p.resolve path = .ok q) (hfolder : q.item.isFolder = true) (hproper : q.item.IsProper) :
    IsListing (Ignore.Coverage.ofPlace q path).skips q.item path (treeFiles p path) := by
  obtain ⟨items, hitems⟩ : ∃ items, q.item = .folder items := by
    cases hitem : q.item with
    | file content =>
      rw [hitem] at hfolder
      cases hfolder
    | folder items => exact ⟨items, rfl⟩
  rw [treeFiles_of_folder hpath hq hitems]
  rw [hitems] at hproper ⊢
  rw [map_filesBelow_eq_listed hproper]
  exact isListing_listed hproper (Item.isWalk_entriesAmong hproper)

/-- **The tree files below a folder** are listed exactly, for every path that leads to the folder
and does not stand for the input: the list is the one that every walk makes that skips what the
rules ignore. Whatever a walk skips, the order in which it goes makes no difference. A path that
stands for the input finds nothing, whatever is in the folder of that name. -/
theorem treeFiles_exact {p q : Place} (hq : p.resolve path = .ok q)
    (hfolder : q.item.isFolder = true) (hproper : q.item.IsProper) :
    (standsForInput path = false →
      IsListing (Ignore.Coverage.ofPlace q path).skips q.item path (treeFiles p path) ∧
        ∀ walk, q.item.IsWalk (Ignore.Coverage.ofPlace q path).skips walk →
          listed path walk = treeFiles p path) ∧
      (standsForInput path = true → treeFiles p path = []) ∧
      ∀ skip walk, q.item.IsWalk skip walk → IsListing skip q.item path (listed path walk) := by
  refine ⟨fun hpath => ?_, fun hpath => treeFiles_of_input hpath p,
    fun skip walk hwalk => isListing_listed hproper hwalk⟩
  have hlisting := isListing_treeFiles hpath hq hfolder hproper
  exact ⟨hlisting, fun walk hwalk => (isListing_listed hproper hwalk).unique hlisting⟩

/-- A folder with an ignored folder and with a folder that is named like a tree file. -/
theorem treeFiles_exact_of_drafts :
    ∃ p q : Place, p.resolve "d" = .ok q ∧
      (q.item.items.map Prod.fst) = [".ficumignore", "drafts", "x.yaml"] ∧
        IsListing (Ignore.Coverage.ofPlace q "d").skips q.item "d" ["d/x.yaml/b.yml"] := by
  let d : Item := .folder [(".ficumignore", .file (Text.bytes "drafts/\n")),
    ("drafts", .folder [("wip.yaml", .file [])]), ("x.yaml", .folder [("b.yml", .file [])])]
  let p : Place := .top (.folder [("d", d)])
  have hfile : ∀ name content, IsName name → (Item.folder [(name, .file content)]).IsProper :=
    fun name content hname => .folder (List.nodup_singleton _) (by simpa using hname)
      (by simpa using .file content)
  have hproper : d.IsProper := by
    refine .folder (by decide) (by decide) ?_
    simp only [List.mem_cons, List.not_mem_nil, or_false, forall_eq_or_imp, forall_eq]
    exact ⟨.file _, hfile _ _ (by decide), hfile _ _ (by decide)⟩
  have hresolve : p.resolve "d" = .ok ⟨d, [(.folder [("d", d)], "d")]⟩ := rfl
  have hfiles : treeFiles p "d" = ["d/x.yaml/b.yml"] := by decide +kernel
  exact ⟨p, _, hresolve, rfl,
    hfiles ▸ ((treeFiles_exact hresolve rfl hproper).1 (by decide)).1⟩

/-- A folder with the name of a hyphen: the path to it finds nothing, although it holds a tree
file. -/
theorem not_isListing_of_hyphen :
    ∃ p q : Place, p.resolve "-" = .ok q ∧ q.item.isFolder = true ∧ q.item.IsProper ∧
      ¬IsListing (Ignore.Coverage.ofPlace q "-").skips q.item "-" (treeFiles p "-") := by
  let d : Item := .folder [("a.yaml", .file [])]
  let p : Place := .top (.folder [("-", d)])
  have hproper : d.IsProper :=
    .folder (List.nodup_singleton _) (by decide) (by simpa using .file [])
  refine ⟨p, ⟨d, [(.folder [("-", d)], "-")]⟩, rfl, rfl, hproper, fun h => ?_⟩
  have hvisited : d.IsVisited
      (Ignore.Coverage.ofPlace ⟨d, [(.folder [("-", d)], "-")]⟩ "-").skips ["a.yaml"]
        (.file []) := by
    refine ⟨.down List.mem_cons_self (.here _), by decide, by decide, ?_⟩
    intro way rest heq hway hrest
    have hlength := congrArg List.length heq
    have := List.length_pos_iff.mpr hway
    have := List.length_pos_iff.mpr hrest
    rw [List.length_append, List.length_singleton] at hlength
    omega
  have hlisted := (h.mem_iff "-/a.yaml").mpr ⟨["a.yaml"], [], by decide, by decide,
    ⟨"a.yaml", rfl, isTreeName_iff.mp (by decide)⟩, hvisited⟩
  exact absurd hlisted List.not_mem_nil

end Discovery

end QueryTree
