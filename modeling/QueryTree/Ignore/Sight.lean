import QueryTree.Ignore.Glob
import QueryTree.Text.Split

/-!
# How rules see a path

The rules of a folder are about paths that begin in it. A walk knows both the folder and what lies in
it by paths that begin as the walk was told to; so what the rules see of a path is what is left after
the folder's own. Both are compared as they are written: a `./` at the beginning is left out, twice of
the path and once of the folder, and where the folder's path does not begin the other one, the rules
see all of it.
-/

namespace QueryTree.Ignore

/-- The dot as a byte. -/
def dot : UInt8 := 0x2E

/-- A path without one `./` at its beginning. -/
def withoutDot (path : List UInt8) : List UInt8 :=
  if [dot, slash].isPrefixOf path then path.drop 2 else path

/-- A path that leads nowhere else: a dot, with slashes and more dots after it. -/
def staysHere (path : List UInt8) : Bool :=
  match Text.split slash path with
  | first :: rest => first == [dot] && rest.all fun name => name.isEmpty || name == [dot]
  | [] => false

/-- A path without a folder that begins it and without the slash after that. -/
def withoutFolder (folder path : List UInt8) : List UInt8 :=
  if folder.isPrefixOf path then
    let rest := path.drop folder.length
    if rest.head? = some slash then rest.drop 1 else rest
  else path

/-- What the rules of a folder see of a path. -/
def seenFrom (folder path : List UInt8) : List UInt8 :=
  let folder := withoutDot folder
  let path := withoutDot (withoutDot path)
  if staysHere folder || !path.contains slash then path else withoutFolder folder path

end QueryTree.Ignore
