import QueryTree.Files.Place
import QueryTree.Proofs.Files.Walk
import QueryTree.Proofs.Text.Order

/-!
# The components of a path

The names of a path that lead somewhere. A path from a folder on has the components of the folder
and the names after it (`components_pathBelow`), so paths below one folder are in the order of the
names, whatever the folder's own path looks like.
-/

namespace QueryTree.Files.Place

variable {folder name : String} {names : List String}

theorem components_append_slash (folder rest : String) :
    components (folder ++ "/" ++ rest) = components folder ++ components rest := by
  have hlist : (folder ++ "/" ++ rest).toList = folder.toList ++ '/' :: rest.toList := by
    simp
  rw [components, namesOf, hlist, Text.split_append_cons, List.map_append, List.filter_append]
  rfl

/-- A name of an item is the one component of itself. -/
theorem components_of_isName (h : IsName name) : components name = [name] := by
  rw [components, namesOf, Text.split_of_notMem h.no_slash]
  simp [h.ne_empty, h.ne_dot]

theorem components_pathTo (h : IsName name) :
    components (pathTo folder name) = components folder ++ [name] := by
  unfold pathTo
  split
  case isTrue hslash =>
    -- a slash at the end is followed by an empty name, which is no component
    obtain ⟨before, hfolder⟩ : ∃ before, folder = before ++ "/" ++ "" := by
      obtain ⟨cs, hcs⟩ := List.getLast?_eq_some_iff.mp hslash
      refine ⟨String.ofList cs, String.toList_inj.mp ?_⟩
      simp [hcs]
    have hempty : components "" = [] := by decide
    rw [hfolder, components_append_slash, hempty, List.append_nil, String.append_empty,
      components_append_slash, components_of_isName h]
  case isFalse => rw [components_append_slash, components_of_isName h]

/-- **The components of a path below a folder** are those of the folder and the names after it. -/
theorem components_pathBelow (h : ∀ n ∈ names, IsName n) :
    components (pathBelow folder names) = components folder ++ names := by
  induction names generalizing folder with
  | nil => exact (List.append_nil _).symm
  | cons n names ih =>
    obtain ⟨hname, hnames⟩ := List.forall_mem_cons.mp h
    rw [pathBelow, List.foldl_cons, ← pathBelow, ih hnames, components_pathTo hname,
      List.append_assoc]
    rfl

/-- `a` stands before `b` in the order of components. -/
def precedes (a b : String) : Bool := Text.namesPrecede (components a) (components b)

theorem not_precedes_trans (a b c : String) :
    (!precedes b a) = true → (!precedes c b) = true → (!precedes c a) = true :=
  Text.not_namesPrecede_trans _ _ _

theorem not_precedes_total (a b : String) : (!precedes b a || !precedes a b) = true :=
  Text.not_namesPrecede_total _ _

theorem precedes_pathBelow {names₁ names₂ : List String} (h₁ : ∀ n ∈ names₁, IsName n)
    (h₂ : ∀ n ∈ names₂, IsName n) :
    precedes (pathBelow folder names₁) (pathBelow folder names₂) =
      Text.namesPrecede names₁ names₂ := by
  rw [precedes, components_pathBelow h₁, components_pathBelow h₂, Text.namesPrecede_append]

theorem pathBelow_inj {names₁ names₂ : List String} (h₁ : ∀ n ∈ names₁, IsName n)
    (h₂ : ∀ n ∈ names₂, IsName n) (h : pathBelow folder names₁ = pathBelow folder names₂) :
    names₁ = names₂ := by
  have hcomponents := congrArg components h
  rwa [components_pathBelow h₁, components_pathBelow h₂, List.append_cancel_left_eq] at hcomponents

end QueryTree.Files.Place
