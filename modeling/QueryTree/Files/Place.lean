import QueryTree.Files.Item
import QueryTree.Text.Bytes
import QueryTree.Text.Digits
import QueryTree.Text.Split

/-!
# Places and the paths to them

A place is a file or folder together with the folders around it. A path is a text with a `/` between
names; it leads from one place to another, name by name: a dot and an empty name stay, two dots go
to the folder around, any other name goes to the item of that name. All but the end of a way has to
be a folder, and a name after a file fails.
-/

namespace QueryTree.Files

/-- Why a file cannot be read. -/
inductive ReadError where
  /-- Nothing is there. -/
  | missing
  /-- The way leads on from a file. -/
  | notFolder
  /-- A folder is there. -/
  | isFolder
  /-- A name or the whole path has too many bytes. -/
  | tooLong
  /-- The path holds a character that no path may hold. -/
  | nulInPath
  /-- The content is no text. -/
  | notText
  /-- Anything else, by the words and the number that the system has for it. -/
  | system (text : String) (number : Nat)
  deriving DecidableEq

namespace ReadError

/-- The failure that the system counts by a number, with its words for it. -/
def ofNumber (number : Nat) (text : String) : ReadError :=
  match number with
  | 2 => missing
  | 20 => notFolder
  | 21 => isFolder
  | 36 => tooLong
  | _ => system text number

/-- The message of a failure that the system counts among its own. -/
def numbered (text : String) (number : Nat) : String :=
  text ++ " (os error " ++ String.ofList (Text.decimal number) ++ ")"

/-- What is said of a failure. -/
def message : ReadError → String
  | missing => numbered "No such file or directory" 2
  | notFolder => numbered "Not a directory" 20
  | isFolder => numbered "Is a directory" 21
  | tooLong => numbered "File name too long" 36
  | nulInPath => "file name contained an unexpected NUL byte"
  | notText => "stream did not contain valid UTF-8"
  | system text number => numbered text number

end ReadError

/-- A file or folder with the folders around it, the innermost first. Each comes with the name under
which it holds the one before. -/
structure Place where
  item : Item
  around : List (Item × String)

namespace Place

/-- A folder with nothing around it. -/
def top (item : Item) : Place := ⟨item, []⟩

/-- What lies outside of all folders that are known: a folder of which no item is known. -/
def outside : Place := .top .empty

/-- The folder around. -/
def up (p : Place) : Place :=
  match p.around with
  | [] => .outside
  | (folder, _) :: rest => ⟨folder, rest⟩

/-- The item of a name. -/
def down? (p : Place) (name : String) : Option Place :=
  (p.item.child? name).map fun item => ⟨item, (p.item, name) :: p.around⟩

/-- The greatest number of bytes of a name. -/
def nameLimit : Nat := 255

/-- The least number of bytes that is too many for a path. -/
def pathLimit : Nat := 4096

/-- From a place to the next, by one name of a path. -/
def step (p : Place) (name : String) : Except ReadError Place :=
  if !p.item.isFolder then .error .notFolder
  else if name = "" ∨ name = "." then .ok p
  else if name = ".." then .ok p.up
  else if nameLimit < (Text.bytes name).length then .error .tooLong
  else
    match p.down? name with
    | some q => .ok q
    | none => .error .missing

/-- The names that a path consists of. -/
def namesOf (path : String) : List String := (Text.split '/' path.toList).map String.ofList

/-- The names of a path, without those that stay where they are. -/
def components (path : String) : List String :=
  (namesOf path).filter fun name => name ≠ "" ∧ name ≠ "."

/-- The path to what a folder holds under a name. -/
def pathTo (folder name : String) : String :=
  if folder.toList.getLast? = some '/' then folder ++ name else folder ++ "/" ++ name

/-- The path to where names lead from a folder on. -/
def pathBelow (folder : String) (names : List String) : String := names.foldl pathTo folder

/-- Why a text leads nowhere, whatever files there are. -/
def unfitPath? (path : String) : Option ReadError :=
  if path.toList.contains '\x00' then some .nulInPath
  else if path = "" then some .missing
  else if pathLimit ≤ (Text.bytes path).length then some .tooLong
  else none

/-- The place to which a path leads. A path that begins with `/` leads there from outside. -/
def resolve (p : Place) (path : String) : Except ReadError Place :=
  match unfitPath? path with
  | some cause => .error cause
  | none => (namesOf path).foldlM step (if path.toList.head? = some '/' then .outside else p)

/-- The content of the file to which a path leads. -/
def read (p : Place) (path : String) : Except ReadError (List UInt8) := do
  match (← p.resolve path).item with
  | .file content => .ok content
  | .folder _ => .error .isFolder

end Place

end QueryTree.Files
