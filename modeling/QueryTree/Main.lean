import QueryTree.CommandLine.Report
import QueryTree.Discovery

/-!
# The program

Reads what a run needs and writes its report. The system is asked for the content of files only, so
a folder on the disk cannot be searched here: the run says so and fails. All texts that are not
well-formed are spoken of in the same words.
-/

namespace QueryTree.CommandLine

open QueryTree.Files (Item Place ReadError)

/-- The number of the system's failure, whichever sign it comes with. -/
def failureNumber (number : UInt32) : Nat := min number.toNat (-number).toNat

/-- The reason why a file cannot be read. -/
def readErrorOf : IO.Error → ReadError
  | .noFileOrDirectory _ number text => .ofNumber (failureNumber number) text
  | .inappropriateType _ number text => .ofNumber (failureNumber number) text
  | .invalidArgument _ number text => .ofNumber (failureNumber number) text
  | .permissionDenied _ number text => .ofNumber (failureNumber number) text
  | .resourceExhausted _ number text => .ofNumber (failureNumber number) text
  | .otherError number text => .ofNumber (failureNumber number) text
  | e => .system (toString e) 0

/-- The content of a file. -/
def readContent (path : String) : IO (Except ReadError (List UInt8)) := do
  match Place.unfitPath? path with
  | some cause => return .error cause
  | none =>
    try
      return .ok (← IO.FS.readBinFile path).toList
    catch e =>
      return .error (readErrorOf e)

/-- All that is left to read. -/
def readRest (stream : IO.FS.Stream) : IO (List UInt8) := do
  let mut content := ByteArray.empty
  repeat
    let part ← stream.read 65536
    if part.isEmpty then break
    content := content ++ part
  return content.toList

/-- The tree files where a path leads, unless it leads to a folder. -/
def findTreeFiles? (path : String) : IO (Option (List String)) := do
  if Discovery.standsForInput path then return some []
  match ← readContent path with
  | .ok content =>
    let name := (Place.namesOf path).getLast?.getD ""
    return some (Discovery.treeFilesAt ⟨.file content, [(.empty, name)]⟩ path)
  | .error .isFolder => return none
  | .error _ => return some []

/-- The report is written, and its code is the program's. -/
def write (report : Report) : IO UInt32 := do
  (← IO.getStdout).putStr report.output
  (← IO.getStderr).putStr report.complaint
  return report.status.code.toUInt32

/-- What is said of any text that is not well-formed. -/
def malformedText : String := "the text is not well-formed"

/-- What is said of a folder on the disk. -/
def folderNotListed : String :=
  "Error: the files of a folder cannot be listed; pass their paths with --stdin"

/-- Reads what the options need, and runs them. -/
def perform (arguments : List String) (folder : Option String) (o : Options) : IO UInt32 := do
  let found ← match o.dir with
    | some dir => findTreeFiles? dir
    | none => pure (some [])
  match found with
  | none => write (.failure folderNotListed)
  | some found =>
    let input ← if o.stdin then readRest (← IO.getStdin) else pure []
    let paths := o.paths (fun _ => found) input
    let contents ← paths.mapM fun path => return (path, ← readContent path)
    let content (path : String) := (contents.lookup path).getD (.error .missing)
    write (run arguments ⟨folder, fun _ => found, content, input, fun _ => malformedText⟩)

/-- Runs a command line. -/
def program (arguments : List String) : IO UInt32 := do
  let folder ← IO.getEnv folderVariable
  match Options.ofArguments folder arguments with
  | .ok o => perform arguments folder o
  | .error _ =>
    write (run arguments
      ⟨folder, fun _ => [], fun _ => .error .missing, [], fun _ => malformedText⟩)

end QueryTree.CommandLine

def main (arguments : List String) : IO UInt32 := QueryTree.CommandLine.program arguments
