import QueryTree.Text.Terminal

/-!
# Options of the command line

What the words of a command line ask for. Words are read from left to right, and the first that asks
for help or is wrong ends the reading. After `--` every word is a file. The folder may also be given
by an environment variable, which counts where the command line names none.
-/

namespace QueryTree.CommandLine

/-- The environment variable for the folder. -/
def folderVariable : String := "FICUM_DIR"

/-- What a command line asks for. -/
structure Options where
  /-- The files that are named. -/
  files : List String
  /-- The folder in which files are looked for. -/
  dir : Option String
  /-- Paths of files are read from the input. -/
  stdin : Bool
  /-- The selectors are listed, not the queries. -/
  selectors : Bool
  /-- The selectors are listed with their counts. -/
  count : Bool
  /-- How much is logged. -/
  verbose : Nat

namespace Options

/-- Nothing is asked for. -/
def unset : Options := ⟨[], none, false, false, false, 0⟩

/-- Some source of trees is given. -/
def hasSource (o : Options) : Bool := !o.files.isEmpty || o.dir.isSome || o.stdin

end Options

/-- What is wrong with a command line. -/
inductive Misuse where
  /-- There is no such option. -/
  | unknown (word : String)
  /-- An option is given twice that may be given once. -/
  | repeated (option : String)
  /-- A value is missing or empty. -/
  | noValue (option : String)
  /-- An option that takes no value is given one. -/
  | needlessValue (option value : String)

/-- What is said of a wrong command line. -/
def Misuse.message : Misuse → String
  | unknown word => "unexpected argument '" ++ word ++ "' found"
  | repeated option => "the argument '" ++ option ++ "' cannot be used multiple times"
  | noValue option => "a value is required for '" ++ option ++ "' but none was supplied"
  | needlessValue option value =>
    "unexpected value '" ++ value ++ "' for '" ++ option ++ "' found; no more were expected"

/-- Why no options come of a command line. -/
inductive Stop where
  /-- Help is asked for. -/
  | help
  /-- The command line is wrong. -/
  | misuse (cause : Misuse)

/-! ### Words -/

/-- A word of the command line by its form. -/
inductive Word where
  /-- A word without a hyphen at its beginning, or a hyphen alone. -/
  | value (text : String)
  /-- Two hyphens alone. -/
  | separator
  /-- A word after two hyphens, with a value after a `=` or without. -/
  | long (name : String) (value : Option String)
  /-- Letters after one hyphen. -/
  | short (letters : List Char)

/-- The form of a word. -/
def Word.ofString (word : String) : Word :=
  match word.toList with
  | ['-', '-'] => .separator
  | '-' :: '-' :: rest =>
    let name := String.ofList (rest.takeWhile (· ≠ '='))
    match rest.dropWhile (· ≠ '=') with
    | [] => .long name none
    | _ :: text => .long name (some (String.ofList text))
  | ['-'] => .value word
  | '-' :: letters => .short letters
  | _ => .value word

namespace Options

/-- How the options with a value are shown. -/
def dirShown : String := "--dir <DIR>"

/-- How the files are shown. -/
def filesShown : String := "[FILES]..."

/-- One more file. -/
def addFile (o : Options) (file : String) : Except Stop Options :=
  if file = "" then .error (.misuse (.noValue filesShown))
  else .ok { o with files := o.files ++ [file] }

/-- The folder. -/
def setDir (o : Options) (value : String) : Except Stop Options :=
  if value = "" then .error (.misuse (.noValue dirShown))
  else if o.dir.isSome then .error (.misuse (.repeated dirShown))
  else .ok { o with dir := some value }

/-- A flag that may be given once. -/
def setOnce (given : Bool) (option : String) (set : Options) : Except Stop Options :=
  if given then .error (.misuse (.repeated option)) else .ok set

/-- An option without a value, by its name after two hyphens. -/
def setFlag (o : Options) (name : String) : Except Stop Options :=
  match name with
  | "stdin" => setOnce o.stdin "--stdin" { o with stdin := true }
  | "selectors" => setOnce o.selectors "--selectors" { o with selectors := true }
  | "count" => setOnce o.count "--count" { o with count := true }
  | "verbose" => .ok { o with verbose := o.verbose + 1 }
  | "help" => .error .help
  | _ => .error (.misuse (.unknown ("--" ++ name)))

/-- The names of the options without a value. -/
def flags : List String := ["stdin", "selectors", "count", "verbose", "help"]

/-- Options of one letter, in their order. -/
def setLetters (o : Options) : List Char → Except Stop Options
  | [] => .ok o
  | 'v' :: letters => setLetters { o with verbose := o.verbose + 1 } letters
  | 'h' :: _ => .error .help
  | c :: _ => .error (.misuse (.unknown (String.ofList ['-', c])))

/-- The options of some words, added to others. -/
def read : Options → List String → Except Stop Options
  | o, [] => .ok o
  | o, word :: rest =>
    match Word.ofString word, rest with
    | .value file, rest => do (← o.addFile file).read rest
    | .separator, rest => rest.foldlM addFile o
    | .long "dir" (some value), rest => do (← o.setDir value).read rest
    | .long "dir" none, [] => .error (.misuse (.noValue dirShown))
    | .long "dir" none, next :: rest =>
      match Word.ofString next with
      | .value value => do (← o.setDir value).read rest
      | _ => .error (.misuse (.noValue dirShown))
    | .long name (some value), _ =>
      .error (.misuse (if name ∈ flags then .needlessValue ("--" ++ name) value
        else .unknown ("--" ++ name)))
    | .long name none, rest => do (← o.setFlag name).read rest
    | .short letters, rest => do (← o.setLetters letters).read rest

/-- Options with the folder of the environment, unless they have one. -/
def orFolder (o : Options) (folder : Option String) : Except Stop Options :=
  match o.dir, folder with
  | none, some value => o.setDir value
  | _, _ => .ok o

/-- The options of a command line and the folder of the environment. -/
def ofArguments (folder : Option String) (arguments : List String) : Except Stop Options := do
  (← unset.read arguments).orFolder folder

end Options

/-! ### Help -/

/-- How the program is called. -/
def usage : String := "Usage: ficum [OPTIONS] [FILES]..."

/-- A text whose later lines begin at the column of the help texts. -/
def indented (s : String) : String :=
  String.ofList (s.toList.flatMap fun c => if c = '\n' then c :: List.replicate 20 ' ' else [c])

/-- The help text as a terminal shows it. It names the folder of the environment. -/
def helpText (folder : Option String) : String :=
  Text.Terminal.plain <| String.intercalate "\n"
    ["Print FICUM expression trees as canonical query strings", "", usage, "", "Arguments:",
      "  [FILES]...  YAML tree files to render", "", "Options:",
      "      --dir <DIR>   Render every .yaml/.yml tree under this directory [env: "
        ++ folderVariable ++ "=" ++ indented (folder.getD "") ++ "]",
      "      --stdin       Read tree file paths from stdin",
      "      --selectors   List selectors used by the trees instead of rendering them",
      "      --count       Show count for each selector (use with --selectors)",
      "  -v, --verbose...  Increase log verbosity",
      "  -h, --help        Print help", ""]

end QueryTree.CommandLine
