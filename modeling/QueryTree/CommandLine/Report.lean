import QueryTree.CommandLine.Options
import QueryTree.Inventory
import QueryTree.TreeFile
import QueryTree.Tree.Rendering
import QueryTree.Text.Split
import QueryTree.Text.Space

/-!
# Runs of the command line

A run takes the trees of all files that its options name and reports their queries, one line each,
or their selectors. The files of the command line come first, then those found in the folder, then
those that the input names. One file that gives no tree fails the whole run.
-/

namespace QueryTree.CommandLine

open QueryTree.Files (ReadError)

/-- How a run ends. -/
inductive Status where
  /-- Something was reported. -/
  | done
  /-- There was nothing to report. -/
  | nothing
  /-- The command line was wrong, or a file gave no tree. -/
  | failed
  deriving DecidableEq

/-- The exit code of a run. -/
def Status.code : Status → UInt8
  | done => 0
  | nothing => 1
  | failed => 2

/-- What a run leaves behind. -/
structure Report where
  status : Status
  /-- What is written to the output. -/
  output : String
  /-- What is written about a failure. -/
  complaint : String

namespace Report

/-- A failed run. -/
def failure (complaint : String) : Report := ⟨.failed, "", complaint ++ "\n"⟩

/-- Lines, each with its end. -/
def text (lines : List String) : String := String.join (lines.map (· ++ "\n"))

/-- A run that reports some lines. -/
def ofLines (lines : List String) : Report := ⟨.done, text lines, ""⟩

/-- A run without anything to report. -/
def empty : Report := ⟨.nothing, "", ""⟩

end Report

/-! ### Paths of the input -/

/-- The path on a line, unless the line is blank or no text. -/
def pathOfLine? (line : List UInt8) : Option String :=
  match (Text.ofBytes? line).map Text.trim with
  | some path => if path = "" then none else some path
  | none => none

/-- The paths on the lines of the input. -/
def readPaths (input : List UInt8) : List String := (Text.split 0x0A input).filterMap pathOfLine?

/-! ### Reports -/

/-- The line of a tree; with several trees the path of the file stands before it. -/
def queryLine (several : Bool) (file : String × Tree) : String :=
  if several then file.1 ++ "\t" ++ file.2.render else file.2.render

/-- The report on the queries of some trees. -/
def reportQueries (trees : List (String × Tree)) : Report :=
  .ofLines (trees.map (queryLine (1 < trees.length)))

/-- The report on the selectors of some trees. -/
def reportSelectors (counted : Bool) (trees : List (String × Tree)) : Report :=
  let inventory := Inventory.ofTrees (trees.map Prod.snd)
  if inventory.isEmpty then .empty else .ofLines (inventory.lines counted)

/-- The complaint about a file that gives no tree. -/
def complaint (wording : String → String) (path : String) (e : LoadError) : String :=
  "Tree error in " ++ path ++ ": " ++ e.message wording

namespace Options

/-- The report on some files. -/
def report (o : Options) (wording : String → String) (files : List TreeFile) : Report :=
  match TreeFile.loadAll files with
  | .error (path, e) => .failure (complaint wording path e)
  | .ok [] => .empty
  | .ok trees => if o.selectors then reportSelectors o.count trees else reportQueries trees

/-- The paths of all files, given the files that are found in the folder and the input. -/
def paths (o : Options) (found : String → List String) (input : List UInt8) : List String :=
  o.files ++ (match o.dir with | some dir => found dir | none => [])
    ++ (if o.stdin then readPaths input else [])

end Options

/-! ### Runs -/

/-- What a run finds around it. -/
structure Surroundings where
  /-- The folder that the environment names. -/
  folder : Option String
  /-- The tree files below a folder. -/
  found : String → List String
  /-- The content of a file. -/
  read : String → Except ReadError (List UInt8)
  /-- The input. -/
  input : List UInt8
  /-- What is said of a text that is not well-formed YAML. -/
  wording : String → String

/-- What is said if a command line names no source of trees. -/
def noSource : String :=
  "Error: No trees specified. Pass files, --dir, --stdin or set " ++ folderVariable

/-- The run of some options. -/
def Options.run (o : Options) (s : Surroundings) : Report :=
  if !o.hasSource then .failure noSource
  else o.report s.wording ((o.paths s.found s.input).map fun path => ⟨path, s.read path⟩)

/-- What is written about a wrong command line. -/
def misuseText (cause : Misuse) : String :=
  "error: " ++ cause.message ++ "\n\n" ++ usage ++ "\n\nFor more information, try '--help'."

/-- The run of a command line. -/
def run (arguments : List String) (s : Surroundings) : Report :=
  match Options.ofArguments s.folder arguments with
  | .ok o => o.run s
  | .error .help => ⟨.done, helpText s.folder, ""⟩
  | .error (.misuse cause) => .failure (misuseText cause)

end QueryTree.CommandLine
