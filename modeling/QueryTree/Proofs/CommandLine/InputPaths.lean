import QueryTree.CommandLine.Report
import QueryTree.Proofs.Text.Order
import QueryTree.Proofs.Text.Space

/-!
# Paths on the lines of the input

Every line of the input gives its path whatever the other lines are (`readPaths_by_line`). A line
that is no text or white space alone gives none. Taking the lines off the input one after the other,
with a carriage return at the end of a line taken off too, gives the same paths as cutting the whole
input at its line feeds (`readOn_eq_readPaths`).
-/

namespace QueryTree.Text

/-! ### Texts and their bytes -/

theorem ofBytes?_bytes (s : String) : ofBytes? (bytes s) = some s := by
  have hvalid : (⟨(bytes s).toArray⟩ : ByteArray).IsValidUTF8 := s.isValidUTF8
  rw [ofBytes?, String.fromUTF8?, dif_pos hvalid]
  rfl

/-- A list of bytes is a text if it is the bytes of that text. -/
theorem ofBytes?_eq_some_iff {bs : List UInt8} {s : String} :
    ofBytes? bs = some s ↔ bytes s = bs := by
  constructor
  · intro h
    rw [ofBytes?, String.fromUTF8?] at h
    split at h
    · cases h
      rfl
    · cases h
  · rintro rfl
    exact ofBytes?_bytes s

end QueryTree.Text

namespace QueryTree.CommandLine

open QueryTree.Text

/-- The line feed as a byte. -/
def lineFeed : UInt8 := 0x0A

/-! ### The paths of one line -/

/-- What one line gives: nothing if it is no text or white space alone, otherwise the path that is
left without the white space around it. -/
inductive Gives : List UInt8 → List String → Prop where
  | notText {line : List UInt8} : (∀ s, bytes s ≠ line) → Gives line []
  | blank {s : String} : IsBlank s.toList → Gives (bytes s) []
  | path {s path : String} : ¬ IsBlank s.toList → Trimmed s.toList path.toList →
    Gives (bytes s) [path]

theorem gives_pathOfLine? (line : List UInt8) : Gives line (pathOfLine? line).toList := by
  rw [pathOfLine?]
  cases htext : ofBytes? line with
  | none =>
    refine .notText fun s hs => ?_
    rw [ofBytes?_eq_some_iff.mpr hs] at htext
    cases htext
  | some s =>
    obtain rfl := ofBytes?_eq_some_iff.mp htext
    rw [Option.map_some]
    dsimp only
    split
    case isTrue hempty => exact .blank (trim_eq_empty_iff.mp hempty)
    case isFalse hpath =>
      exact .path (fun hblank => hpath (trim_eq_empty_iff.mpr hblank)) (trim_eq_iff.mp rfl)

/-- A line gives one thing only. -/
theorem Gives.unique {line : List UInt8} {paths paths' : List String} (h : Gives line paths)
    (h' : Gives line paths') : paths = paths' := by
  cases h with
  | notText hline =>
    cases h' with
    | notText => rfl
    | blank => exact absurd rfl (hline _)
    | path => exact absurd rfl (hline _)
  | @blank s hblank =>
    generalize hline : bytes s = line at h'
    cases h' with
    | notText hnot => exact absurd hline (hnot s)
    | blank => rfl
    | path hpath =>
      obtain rfl := bytes_inj hline
      exact absurd hblank hpath
  | @path s path hpath htrimmed =>
    generalize hline : bytes s = line at h'
    cases h' with
    | notText hnot => exact absurd hline (hnot s)
    | blank hblank =>
      obtain rfl := bytes_inj hline
      exact absurd hblank hpath
    | path _ htrimmed' =>
      obtain rfl := bytes_inj hline
      rw [← trim_eq_iff.mpr htrimmed, ← trim_eq_iff.mpr htrimmed']

/-! ### All lines -/

/-- Two inputs with a line feed between them give what each of them gives. -/
theorem readPaths_append (x y : List UInt8) :
    readPaths (x ++ lineFeed :: y) = readPaths x ++ readPaths y := by
  rw [readPaths, lineFeed, split_append_cons, List.filterMap_append]
  rfl

theorem readPaths_of_notMem {line : List UInt8} (h : lineFeed ∉ line) :
    readPaths line = (pathOfLine? line).toList := by
  have hsplit : split 0x0A line = [line] := split_of_notMem h
  rw [readPaths, hsplit, List.filterMap_cons, List.filterMap_nil]
  cases pathOfLine? line <;> rfl

/-- An input of one line gives what that line gives. -/
theorem readPaths_eq_iff_gives {line : List UInt8} (h : lineFeed ∉ line) {paths : List String} :
    readPaths line = paths ↔ Gives line paths := by
  rw [readPaths_of_notMem h]
  constructor
  · rintro rfl
    exact gives_pathOfLine? line
  · exact fun hgives => (gives_pathOfLine? line).unique hgives

/-- Lines with line feeds between them give what each of them gives, in their order. -/
theorem readPaths_joined {lines : List (List UInt8)} (hne : lines ≠ [])
    (hlines : ∀ line ∈ lines, lineFeed ∉ line) :
    ∃ paths, List.Forall₂ Gives lines paths ∧
      readPaths (joined lineFeed lines) = paths.flatten := by
  induction lines with
  | nil => exact absurd rfl hne
  | cons line lines ih =>
    obtain ⟨hline, hrest⟩ := List.forall_mem_cons.mp hlines
    have hgives := (readPaths_eq_iff_gives hline).mp rfl
    cases lines with
    | nil => exact ⟨[readPaths line], .cons hgives .nil, (List.append_nil _).symm⟩
    | cons next lines =>
      obtain ⟨paths, hpaths, hread⟩ := ih (List.cons_ne_nil next lines) hrest
      refine ⟨readPaths line :: paths, .cons hgives hpaths, ?_⟩
      rw [joined, readPaths_append, hread, List.flatten_cons]
      exact List.cons_ne_nil next lines

/-! ### One line after the other -/

/-- A text without one carriage return at its end. -/
def withoutReturn (cs : List Char) : List Char :=
  if cs.getLast? = some '\r' then cs.dropLast else cs

/-- The path on a line that a line feed ends: a carriage return before it belongs to the end. -/
def pathOfEndedLine? (line : List UInt8) : Option String :=
  match (ofBytes? line).map fun s => trim (String.ofList (withoutReturn s.toList)) with
  | some path => if path = "" then none else some path
  | none => none

/-- Reading on with the bytes of a line that has begun. The last line may lack its line feed; at the
end of the input nothing is a line only if it has a byte. -/
def readOn (line : List UInt8) : List UInt8 → List String
  | [] => if line = [] then [] else (pathOfLine? line).toList
  | b :: rest =>
    if b = lineFeed then (pathOfEndedLine? line).toList ++ readOn [] rest
    else readOn (line ++ [b]) rest

/-- The carriage return is white space, so it makes no difference to a path. -/
theorem pathOfEndedLine?_eq (line : List UInt8) : pathOfEndedLine? line = pathOfLine? line := by
  have htrim : ∀ s : String, trim (String.ofList (withoutReturn s.toList)) = trim s := by
    intro s
    rw [trim, trim, String.toList_ofList, withoutReturn]
    split
    case isFalse => rfl
    case isTrue hlast =>
      obtain ⟨cs, hcs⟩ := List.getLast?_eq_some_iff.mp hlast
      have hreturn : IsBlank ['\r'] := List.forall_mem_singleton.mpr rfl
      rw [hcs, List.dropLast_concat, trimChars_append_of_isBlank hreturn]
  unfold pathOfEndedLine? pathOfLine?
  cases ofBytes? line with
  | none => rfl
  | some s => exact congrArg (fun path => if path = "" then none else some path) (htrim s)

/-- What reading on preserves: the paths of the line that has begun and of the rest. -/
theorem readOn_eq_readPaths {line : List UInt8} (h : lineFeed ∉ line) (rest : List UInt8) :
    readOn line rest = readPaths (line ++ rest) := by
  induction rest generalizing line with
  | nil =>
    rw [readOn, List.append_nil, readPaths_of_notMem h]
    split
    case isTrue hnil => rw [hnil]; rfl
    case isFalse => rfl
  | cons b rest ih =>
    rw [readOn]
    split
    case isTrue hb =>
      rw [hb, readPaths_append, readPaths_of_notMem h, pathOfEndedLine?_eq, ih List.not_mem_nil,
        List.nil_append]
    case isFalse hb =>
      rw [ih, List.append_assoc, List.singleton_append]
      simp only [List.mem_append, List.mem_singleton, not_or]
      exact ⟨h, fun heq => hb heq.symm⟩

/-! ### The main result -/

/-- **The input is read line by line**: a line feed keeps what stands before it and behind it apart,
and a single line gives the path that is left without the white space around it, or nothing if it is
no text or blank. So an input, which is some lines with line feeds between them, gives what its
lines give, in their order; and reading it line after line gives the same. -/
theorem readPaths_by_line :
    (∀ x y, readPaths (x ++ lineFeed :: y) = readPaths x ++ readPaths y) ∧
      (∀ line, lineFeed ∉ line → ∀ paths, readPaths line = paths ↔ Gives line paths) ∧
      (∀ lines, lines ≠ [] → (∀ line ∈ lines, lineFeed ∉ line) →
        ∃ paths, List.Forall₂ Gives lines paths ∧
          readPaths (joined lineFeed lines) = paths.flatten) ∧
      (∀ input, ∃ lines, lines ≠ [] ∧ (∀ line ∈ lines, lineFeed ∉ line) ∧
        joined lineFeed lines = input) ∧
      ∀ input, readOn [] input = readPaths input := by
  refine ⟨readPaths_append, fun line h paths => readPaths_eq_iff_gives h,
    fun lines => readPaths_joined, fun input => ?_, readOn_eq_readPaths List.not_mem_nil⟩
  exact ⟨split lineFeed input, split_ne_nil _ _, fun line => notMem_of_mem_split,
    joined_split _ _⟩

/-- A line that is no text, a blank line and white space around a path. -/
theorem readPaths_by_line_of_broken :
    let lines := [bytes "a.yaml\r", 0xFF :: bytes ".yaml", bytes "", bytes "  b.yml  ", []]
    (∀ line ∈ lines, lineFeed ∉ line) ∧
      ∃ paths, List.Forall₂ Gives lines paths ∧
        readPaths (joined lineFeed lines) = paths.flatten ∧
          paths.flatten = ["a.yaml", "b.yml"] := by
  intro lines
  have hlines : ∀ line ∈ lines, lineFeed ∉ line := by decide +kernel
  obtain ⟨-, -, hjoined, -⟩ := readPaths_by_line
  obtain ⟨paths, hgives, hread⟩ := hjoined lines (by simp [lines]) hlines
  have hpaths : readPaths (joined lineFeed lines) = ["a.yaml", "b.yml"] := by decide +kernel
  exact ⟨hlines, paths, hgives, hread, hread ▸ hpaths⟩

end QueryTree.CommandLine
