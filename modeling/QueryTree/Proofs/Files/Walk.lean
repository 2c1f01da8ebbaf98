import Mathlib.Data.List.Nodup
import QueryTree.Files.Listing

/-!
# What a walk visits

A walk through a folder visits what its items and their items lead to, except for what is skipped
and for what lies below a skipped folder (`Item.IsVisited`). It may come to all this in any order
(`Item.IsWalk`); one walk goes through the items of a folder as they are listed
(`Item.isWalk_entriesAmong`), and the files that are found are those it comes to
(`Item.foundAmong_eq_files`).
-/

namespace QueryTree.Files

/-- A name that a folder can have for an item. -/
structure IsName (name : String) : Prop where
  ne_empty : name ≠ ""
  ne_dot : name ≠ "."
  ne_dots : name ≠ ".."
  no_slash : '/' ∉ name.toList

instance (name : String) : Decidable (IsName name) :=
  decidable_of_iff (name ≠ "" ∧ name ≠ "." ∧ name ≠ ".." ∧ '/' ∉ name.toList)
    ⟨fun ⟨h₁, h₂, h₃, h₄⟩ => ⟨h₁, h₂, h₃, h₄⟩, fun h => ⟨h.1, h.2, h.3, h.4⟩⟩

namespace Item

/-- To prove something of all items it is enough to prove it of a folder whose items have it. -/
@[elab_as_elim]
theorem induction {motive : Item → Prop} (file : ∀ content, motive (.file content))
    (folder : ∀ items, (∀ e ∈ items, motive e.2) → motive (.folder items)) : ∀ item, motive item
  | .file content => file content
  | .folder items => folder items fun e _ => induction file folder e.2
termination_by item => sizeOf item
decreasing_by
  rename_i hmem
  have hlt := List.sizeOf_lt_of_mem hmem
  obtain ⟨name, item⟩ := e
  rw [Prod.mk.sizeOf_spec] at hlt
  rw [Item.folder.sizeOf_spec]
  show sizeOf item < _
  omega

/-! ### Ways -/

/-- The names lead from an item to another. -/
inductive Leads : Item → List String → Item → Prop where
  | here (item : Item) : Leads item [] item
  | down {items : List (String × Item)} {name : String} {item target : Item} {names : List String} :
    (name, item) ∈ items → Leads item names target → Leads (.folder items) (name :: names) target

/-- Every folder has names for its items, and no name twice. -/
inductive IsProper : Item → Prop where
  | file (content : List UInt8) : IsProper (.file content)
  | folder {items : List (String × Item)} : (items.map Prod.fst).Nodup →
    (∀ e ∈ items, IsName e.1) → (∀ e ∈ items, IsProper e.2) → IsProper (.folder items)

variable {skip : Skip} {item target : Item} {items : List (String × Item)}
  {before names way : List String} {name : String}

theorem Leads.isName (hproper : item.IsProper) (h : item.Leads names target) :
    ∀ n ∈ names, IsName n := by
  induction h with
  | here => exact fun n hn => absurd hn List.not_mem_nil
  | down hmem _ ih =>
    cases hproper with
    | folder _ hnames hitems =>
      exact List.forall_mem_cons.mpr ⟨hnames _ hmem, ih (hitems _ hmem)⟩

/-! ### Visits -/

/-- A walk through the folder comes to the item of the names: they lead there, the item is not
skipped, and no folder on the way is. -/
structure IsVisited (skip : Skip) (folder : Item) (names : List String) (target : Item) : Prop where
  leads : folder.Leads names target
  ne_nil : names ≠ []
  spared : skip names target.isFolder = false
  way_spared : ∀ way rest, names = way ++ rest → way ≠ [] → rest ≠ [] → skip way true = false

/-- What a walk comes to, each once, in whatever order. -/
structure IsWalk (skip : Skip) (folder : Item) (walk : List (List String × Item)) : Prop where
  nodup : (walk.map Prod.fst).Nodup
  mem_iff : ∀ names target, (names, target) ∈ walk ↔ folder.IsVisited skip names target

mutual

/-- An item that the names lead to and what is below it, as far as it is not skipped. -/
def entries (skip : Skip) (names : List String) : Item → List (List String × Item)
  | .file content => if skip names false then [] else [(names, .file content)]
  | .folder items =>
    if skip names true then [] else (names, .folder items) :: entriesAmong skip names items

/-- The items of a folder and what is below them, as far as it is not skipped. -/
def entriesAmong (skip : Skip) (names : List String) :
    List (String × Item) → List (List String × Item)
  | [] => []
  | (name, item) :: rest => item.entries skip (names ++ [name]) ++ entriesAmong skip names rest

end

/-- The files among what a walk comes to. -/
def files (walk : List (List String × Item)) : List (List String) :=
  (walk.filter fun e => !e.2.isFolder).map Prod.fst

theorem files_append (walk walk' : List (List String × Item)) :
    files (walk ++ walk') = files walk ++ files walk' := by
  rw [files, List.filter_append, List.map_append]
  rfl

mutual

theorem found_eq_files (skip : Skip) (names : List String) :
    ∀ item : Item, item.found skip names = files (item.entries skip names)
  | .file content => by
    rw [found, entries]
    split <;> rfl
  | .folder items => by
    rw [found, entries]
    split
    · rfl
    · exact foundAmong_eq_files skip names items

/-- The files that are found are those that the walk comes to. -/
theorem foundAmong_eq_files (skip : Skip) (names : List String) :
    ∀ items, foundAmong skip names items = files (entriesAmong skip names items)
  | [] => rfl
  | (name, item) :: rest => by
    rw [foundAmong, entriesAmong, files_append, found_eq_files skip _ item,
      foundAmong_eq_files skip names rest]

end

/-! ### The walk in the order of the items -/

theorem entriesAmong_eq_flatMap (skip : Skip) (before : List String)
    (items : List (String × Item)) :
    entriesAmong skip before items = items.flatMap fun e => e.2.entries skip (before ++ [e.1]) := by
  induction items with
  | nil => rw [entriesAmong, List.flatMap_nil]
  | cons e items ih => rw [entriesAmong, ih, List.flatMap_cons]

/-- No folder on the way from an item on is skipped. -/
def IsOpen (skip : Skip) (before names : List String) : Prop :=
  ∀ dir rest, names = dir ++ rest → rest ≠ [] → skip (before ++ dir) true = false

theorem isOpen_nil : IsOpen skip before [] :=
  fun _ _ hnil hrest => absurd (List.append_eq_nil_iff.mp hnil.symm).2 hrest

theorem isOpen_cons_iff :
    IsOpen skip before (name :: names) ↔
      skip before true = false ∧ IsOpen skip (before ++ [name]) names := by
  constructor
  · intro h
    refine ⟨by simpa using h [] (name :: names) rfl (List.cons_ne_nil _ _), ?_⟩
    intro dir rest hnames hrest
    simpa using h (name :: dir) rest (by rw [hnames]; rfl) hrest
  · rintro ⟨hbefore, h⟩ dir rest hsplit hrest
    cases dir with
    | nil => rwa [List.append_nil]
    | cons n dir =>
      obtain ⟨rfl, hnames⟩ := List.cons.inj hsplit
      simpa using h dir rest hnames hrest

/-- The folder where a walk begins is not asked about. -/
theorem isOpen_singleton_iff :
    IsOpen skip [name] names ↔ ∀ way rest, name :: names = way ++ rest → way ≠ [] → rest ≠ [] →
      skip way true = false := by
  constructor
  · intro h way rest hsplit hway hrest
    cases way with
    | nil => exact absurd rfl hway
    | cons n way =>
      obtain ⟨rfl, hnames⟩ := List.cons.inj hsplit
      exact h way rest hnames hrest
  · intro h dir rest hnames hrest
    exact h (name :: dir) rest (by rw [hnames]; rfl) (List.cons_ne_nil _ _) hrest

/-- What the walk comes to from an item on. -/
theorem mem_entries_iff :
    (way, target) ∈ item.entries skip before ↔ ∃ names, way = before ++ names ∧
      item.Leads names target ∧ skip way target.isFolder = false ∧ IsOpen skip before names := by
  induction item using induction generalizing before with
  | file content =>
    rw [entries]
    constructor
    · intro h
      split at h
      case isTrue => cases h
      case isFalse hskip =>
        cases List.mem_singleton.mp h
        exact ⟨[], (List.append_nil _).symm, .here _, Bool.eq_false_iff.mpr hskip, isOpen_nil⟩
    · rintro ⟨names, rfl, hleads, hskip, -⟩
      cases hleads
      rw [List.append_nil, isFolder] at hskip
      rw [List.append_nil, if_neg (Bool.eq_false_iff.mp hskip)]
      exact List.mem_singleton_self _
  | folder items ih =>
    rw [entries]
    constructor
    · intro h
      split at h
      case isTrue => cases h
      case isFalse hskip =>
        have hbefore := Bool.eq_false_iff.mpr hskip
        rcases List.mem_cons.mp h with h | h
        · cases h
          exact ⟨[], (List.append_nil _).symm, .here _, hbefore, isOpen_nil⟩
        · rw [entriesAmong_eq_flatMap, List.mem_flatMap] at h
          obtain ⟨⟨name, item⟩, hmem, h⟩ := h
          obtain ⟨names, rfl, hleads, hspared, hopen⟩ := (ih _ hmem).mp h
          exact ⟨name :: names, by simp, .down hmem hleads, hspared,
            isOpen_cons_iff.mpr ⟨hbefore, hopen⟩⟩
    · rintro ⟨names, rfl, hleads, hspared, hopen⟩
      cases hleads with
      | here =>
        rw [List.append_nil, isFolder] at hspared
        rw [List.append_nil, if_neg (Bool.eq_false_iff.mp hspared)]
        exact List.mem_cons_self
      | @down _ name item _ names hmem hleads =>
        obtain ⟨hbefore, hopen⟩ := isOpen_cons_iff.mp hopen
        rw [if_neg (Bool.eq_false_iff.mp hbefore), entriesAmong_eq_flatMap]
        refine List.mem_cons_of_mem _ (List.mem_flatMap.mpr ⟨_, hmem, (ih _ hmem).mpr ?_⟩)
        exact ⟨names, by simp, hleads, hspared, hopen⟩

/-- The walk comes to what is visited. -/
theorem mem_entriesAmong_iff :
    (names, target) ∈ entriesAmong skip [] items ↔
      (Item.folder items).IsVisited skip names target := by
  rw [entriesAmong_eq_flatMap, List.mem_flatMap]
  constructor
  · rintro ⟨⟨name, item⟩, hmem, h⟩
    obtain ⟨names, rfl, hleads, hspared, hopen⟩ := mem_entries_iff.mp h
    exact ⟨.down hmem hleads, List.cons_ne_nil _ _, hspared, isOpen_singleton_iff.mp hopen⟩
  · rintro ⟨hleads, hne, hspared, hway⟩
    cases hleads with
    | here => exact absurd rfl hne
    | @down _ name item _ names hmem hleads =>
      exact ⟨_, hmem, mem_entries_iff.mpr
        ⟨names, rfl, hleads, hspared, isOpen_singleton_iff.mpr hway⟩⟩

/-- Every way from an item on begins with the way to the item. -/
theorem exists_append_of_mem_entries (h : way ∈ (item.entries skip before).map Prod.fst) :
    ∃ names, way = before ++ names := by
  obtain ⟨⟨way, target⟩, hmem, rfl⟩ := List.mem_map.mp h
  obtain ⟨names, heq, -⟩ := mem_entries_iff.mp hmem
  exact ⟨names, heq⟩

/-- Items of different names have no way in common. -/
theorem nodup_entriesAmong_of_forall (hnames : (items.map Prod.fst).Nodup)
    (hitems : ∀ e ∈ items, ((e.2.entries skip (before ++ [e.1])).map Prod.fst).Nodup) :
    ((entriesAmong skip before items).map Prod.fst).Nodup := by
  rw [entriesAmong_eq_flatMap, List.map_flatMap, List.nodup_flatMap]
  refine ⟨hitems, (List.pairwise_map.mp hnames).imp fun hne way h₁ h₂ => hne ?_⟩
  obtain ⟨names₁, rfl⟩ := exists_append_of_mem_entries h₁
  obtain ⟨names₂, heq⟩ := exists_append_of_mem_entries h₂
  rw [List.append_assoc, List.append_assoc] at heq
  exact (List.cons.inj (List.append_cancel_left heq)).1

/-- The way to a folder is shorter than those to what is in it. -/
theorem notMem_entriesAmong : before ∉ (entriesAmong skip before items).map Prod.fst := by
  rw [entriesAmong_eq_flatMap, List.map_flatMap, List.mem_flatMap]
  rintro ⟨e, -, h⟩
  obtain ⟨names, heq⟩ := exists_append_of_mem_entries h
  have hlength := congrArg List.length heq
  simp only [List.length_append, List.length_singleton] at hlength
  omega

theorem nodup_entries (h : item.IsProper) : ((item.entries skip before).map Prod.fst).Nodup := by
  induction h generalizing before with
  | file =>
    rw [entries]
    split <;> simp
  | folder hnames _ _ ih =>
    rw [entries]
    split
    · exact List.nodup_nil
    · exact List.nodup_cons.mpr
        ⟨notMem_entriesAmong, nodup_entriesAmong_of_forall hnames fun e he => ih e he⟩

/-- **There is a walk**: the one that goes through the items of a folder as they are listed. -/
theorem isWalk_entriesAmong (h : (Item.folder items).IsProper) :
    (Item.folder items).IsWalk skip (entriesAmong skip [] items) := by
  cases h with
  | folder hnames _ hitems =>
    exact ⟨nodup_entriesAmong_of_forall hnames fun e he => nodup_entries (hitems e he),
      fun names target => mem_entriesAmong_iff⟩

variable {folder : Item} {walk : List (List String × Item)}

theorem IsWalk.mem_files_iff (h : folder.IsWalk skip walk) :
    names ∈ files walk ↔ ∃ content, folder.IsVisited skip names (.file content) := by
  rw [files, List.mem_map]
  constructor
  · rintro ⟨⟨names, target⟩, hmem, rfl⟩
    obtain ⟨hmem, hfile⟩ := List.mem_filter.mp hmem
    cases target with
    | file content => exact ⟨content, (h.mem_iff _ _).mp hmem⟩
    | folder => cases hfile
  · rintro ⟨content, hvisited⟩
    exact ⟨_, List.mem_filter.mpr ⟨(h.mem_iff _ _).mpr hvisited, rfl⟩, rfl⟩

theorem IsWalk.nodup_files (h : folder.IsWalk skip walk) : (files walk).Nodup :=
  h.nodup.sublist (List.filter_sublist.map _)

end Item

end QueryTree.Files
