import QueryTree.CommandLine.Options
import QueryTree.Proofs.Outcome

/-!
# Words that name no source

Some words of a command line ask for another report or for more logging, and name no source of
trees. Leaving all of them out leaves a command line that is accepted too, with the same sources
(`Options.ofArguments_sourceWords`). So two accepted command lines that differ in such words alone
have the same sources.
-/

namespace QueryTree.CommandLine

/-! ### Words -/

/-- The word asks for another report or for more logging. -/
def Word.asksReport : Word → Bool
  | .long name none => name ∈ ["selectors", "count", "verbose"]
  | .short letters => letters.all (· = 'v')
  | _ => false

/-- The words of a command line without those that ask for another report. After `--` every word is
a file. -/
def sourceWords : List String → List String
  | [] => []
  | word :: rest =>
    if word = "--" then word :: rest
    else if (Word.ofString word).asksReport then sourceWords rest
    else word :: sourceWords rest

theorem Word.ofString_eq_separator_iff {word : String} :
    Word.ofString word = .separator ↔ word = "--" := by
  constructor
  · intro h
    unfold Word.ofString at h
    split at h
    case h_1 hchars => exact String.toList_inj.mp hchars
    case h_2 =>
      dsimp only at h
      split at h <;> cases h
    all_goals cases h
  · rintro rfl
    rfl

theorem sourceWords_separator (rest : List String) : sourceWords ("--" :: rest) = "--" :: rest := by
  rw [sourceWords, if_pos rfl]

theorem sourceWords_of_report {word : String} (h : (Word.ofString word).asksReport = true)
    (rest : List String) : sourceWords (word :: rest) = sourceWords rest := by
  have hword : word ≠ "--" := by
    rintro rfl
    cases h
  rw [sourceWords, if_neg hword, if_pos h]

theorem sourceWords_of_source {word : String} {form : Word} (hform : Word.ofString word = form)
    (hne : form ≠ .separator) (h : form.asksReport = false) (rest : List String) :
    sourceWords (word :: rest) = word :: sourceWords rest := by
  have hword : word ≠ "--" := by
    rintro rfl
    exact hne (hform ▸ rfl)
  rw [sourceWords, if_neg hword, hform, h, if_neg Bool.false_ne_true]

/-- One more word that asks for another report, at any place before `--`. -/
theorem sourceWords_insert {before : List String} (hbefore : "--" ∉ before) {word : String}
    (h : (Word.ofString word).asksReport = true) (after : List String) :
    sourceWords (before ++ word :: after) = sourceWords (before ++ after) := by
  induction before with
  | nil => exact sourceWords_of_report h after
  | cons w before ih =>
    rw [List.mem_cons, not_or] at hbefore
    have hne : w ≠ "--" := Ne.symm hbefore.1
    rw [List.cons_append, List.cons_append, sourceWords, sourceWords, if_neg hne, if_neg hne,
      ih hbefore.2]

namespace Options

/-! ### The same sources -/

/-- Options that agree but for the report and the logging. -/
structure SameSources (o p : Options) : Prop where
  files : o.files = p.files
  dir : o.dir = p.dir
  stdin : o.stdin = p.stdin

variable {o p q : Options}

theorem SameSources.refl (o : Options) : SameSources o o := ⟨rfl, rfl, rfl⟩

theorem SameSources.symm (h : SameSources o p) : SameSources p o :=
  ⟨h.files.symm, h.dir.symm, h.stdin.symm⟩

theorem SameSources.trans (h : SameSources o p) (h' : SameSources p q) : SameSources o q :=
  ⟨h.files.trans h'.files, h.dir.trans h'.dir, h.stdin.trans h'.stdin⟩

/-- Where the first step is accepted, the second one is so from all options with the same sources,
and leaves the same sources. -/
structure Tracks (step step' : Options → Except Stop Options) : Prop where
  accepted : ∀ {o p o'}, SameSources o p → step o = .ok o' →
    ∃ p', step' p = .ok p' ∧ SameSources o' p'

theorem Tracks.bind {step step' next next' : Options → Except Stop Options}
    (h : Tracks step step') (hnext : Tracks next next') :
    Tracks (fun o => step o >>= next) fun p => step' p >>= next' where
  accepted := by
    intro o p o'' hsame ho
    obtain ⟨o', ho', ho''⟩ := bind_eq_ok_iff.mp ho
    obtain ⟨p', hp', hsame'⟩ := h.accepted hsame ho'
    obtain ⟨p'', hp'', hsame''⟩ := hnext.accepted hsame' ho''
    exact ⟨p'', bind_eq_ok_iff.mpr ⟨p', hp', hp''⟩, hsame''⟩

/-! ### Sources -/

theorem tracks_addFile (file : String) : Tracks (addFile · file) (addFile · file) where
  accepted := by
    intro o p o' h ho
    dsimp only [addFile] at ho ⊢
    split at ho
    · cases ho
    case isFalse hfile =>
      cases ho
      exact ⟨_, if_neg hfile, by rw [h.files], h.dir, h.stdin⟩

theorem tracks_addFiles (files : List String) :
    Tracks (files.foldlM addFile ·) (files.foldlM addFile ·) := by
  induction files with
  | nil => exact ⟨fun h ho => by cases ho; exact ⟨_, rfl, h⟩⟩
  | cons file files ih =>
    simp only [List.foldlM_cons]
    exact (tracks_addFile file).bind ih

theorem tracks_setDir (value : String) : Tracks (setDir · value) (setDir · value) where
  accepted := by
    intro o p o' h ho
    dsimp only [setDir] at ho ⊢
    rw [← h.dir]
    split at ho
    · cases ho
    case isFalse hvalue =>
      split at ho
      · cases ho
      case isFalse hdir =>
        cases ho
        refine ⟨{ p with dir := some value }, ?_, h.files, rfl, h.stdin⟩
        rw [if_neg hvalue, if_neg hdir]

theorem tracks_setStdin : Tracks (setFlag · "stdin") (setFlag · "stdin") where
  accepted := by
    intro o p o' h ho
    change setOnce o.stdin _ _ = _ at ho
    change ∃ p', setOnce p.stdin _ _ = _ ∧ _
    rw [setOnce] at ho ⊢
    rw [← h.stdin]
    split at ho
    · cases ho
    case isFalse hstdin =>
      cases ho
      exact ⟨_, if_neg hstdin, h.files, h.dir, rfl⟩

theorem tracks_orFolder (folder : Option String) :
    Tracks (orFolder · folder) (orFolder · folder) where
  accepted := by
    intro o p o' h ho
    dsimp only [orFolder] at ho ⊢
    rw [← h.dir]
    split at ho
    · exact (tracks_setDir _).accepted h ho
    · cases ho
      exact ⟨p, rfl, h⟩

/-! ### Words that ask for another report -/

theorem sameSources_of_setOnce {given : Bool} {option : String} {set o' : Options}
    (h : setOnce given option set = .ok o') (hset : SameSources o set) : SameSources o o' := by
  rw [setOnce] at h
  split at h
  · cases h
  · cases h
    exact hset

/-- A flag that is accepted is the one for the input, or it asks for another report. -/
theorem setFlag_cases {name : String} {o' : Options} (h : o.setFlag name = .ok o') :
    name = "stdin" ∨ Word.asksReport (.long name none) = true ∧ SameSources o o' := by
  unfold setFlag at h
  split at h
  · exact .inl rfl
  · exact .inr ⟨by decide, sameSources_of_setOnce h ⟨rfl, rfl, rfl⟩⟩
  · exact .inr ⟨by decide, sameSources_of_setOnce h ⟨rfl, rfl, rfl⟩⟩
  · cases h
    exact .inr ⟨by decide, rfl, rfl, rfl⟩
  · cases h
  · cases h

theorem setLetters_eq_ok {letters : List Char} {o' : Options} (h : o.setLetters letters = .ok o') :
    Word.asksReport (.short letters) = true ∧ SameSources o o' := by
  fun_induction setLetters o letters with
  | case1 =>
    cases h
    exact ⟨rfl, .refl _⟩
  | case2 o letters ih =>
    obtain ⟨hletters, hsame⟩ := ih h
    exact ⟨by simpa [Word.asksReport] using hletters, hsame.files, hsame.dir, hsame.stdin⟩
  | case3 => cases h
  | case4 => cases h

/-! ### Command lines -/

variable {word : String}

theorem read_separator (o : Options) (rest : List String) :
    o.read ("--" :: rest) = rest.foldlM addFile o := rfl

theorem read_of_value {file : String} (h : Word.ofString word = .value file) (o : Options)
    (rest : List String) :
    o.read (word :: rest) = o.addFile file >>= fun o => o.read rest := by
  rw [read.eq_def]
  dsimp only
  rw [h]

theorem read_of_dir {value : String} (h : Word.ofString word = .long "dir" (some value))
    (o : Options) (rest : List String) :
    o.read (word :: rest) = o.setDir value >>= fun o => o.read rest := by
  rw [read.eq_def]
  dsimp only
  rw [h]
  rfl

theorem read_of_dir_next {next value : String} (h : Word.ofString word = .long "dir" none)
    (hnext : Word.ofString next = .value value) (o : Options) (rest : List String) :
    o.read (word :: next :: rest) = o.setDir value >>= fun o => o.read rest := by
  simp only [read, h, hnext]

theorem read_of_flag {name : String} (h : Word.ofString word = .long name none)
    (hname : name ≠ "dir") (o : Options) (rest : List String) :
    o.read (word :: rest) = o.setFlag name >>= fun o => o.read rest := by
  rw [read.eq_def]
  dsimp only
  rw [h]
  simp [hname]

/-- **Words that ask for another report may be left out**: what the others give has the same
sources. -/
theorem read_sourceWords (words : List String) :
    Tracks (read · words) (read · (sourceWords words)) where
  accepted := by
    intro o p o' hsame h
    -- Cases 5, 7 and 8 are the command lines that are refused at their first word.
    fun_induction read o words generalizing p o' with
    | case1 =>
      cases h
      exact ⟨p, rfl, hsame⟩
    | case2 o word file rest hword ih =>
      rw [sourceWords_of_source hword Word.noConfusion rfl, read_of_value hword]
      exact ((tracks_addFile file).bind ⟨ih _⟩).accepted hsame h
    | case3 o word rest hword =>
      obtain rfl := Word.ofString_eq_separator_iff.mp hword
      rw [sourceWords_separator, read_separator]
      exact (tracks_addFiles rest).accepted hsame h
    | case4 o word value rest hword ih =>
      rw [sourceWords_of_source hword Word.noConfusion rfl, read_of_dir hword]
      exact ((tracks_setDir value).bind ⟨ih _⟩).accepted hsame h
    | case5 => cases h
    | case6 o word next rest hword value hnext ih =>
      rw [sourceWords_of_source hword Word.noConfusion rfl,
        sourceWords_of_source hnext Word.noConfusion rfl, read_of_dir_next hword hnext]
      exact ((tracks_setDir value).bind ⟨ih _⟩).accepted hsame h
    | case7 => cases h
    | case8 => cases h
    | case9 o word name rest hnil hcons hword ih =>
      obtain ⟨o₁, ho₁, ho'⟩ := bind_eq_ok_iff.mp h
      rcases setFlag_cases ho₁ with rfl | ⟨hreport, hkept⟩
      · rw [sourceWords_of_source hword Word.noConfusion rfl, read_of_flag hword (by decide)]
        exact (tracks_setStdin.bind ⟨ih _⟩).accepted hsame h
      · -- The word is left out, and what it sets is no source.
        rw [sourceWords_of_report (hword ▸ hreport)]
        exact ih o₁ (hkept.symm.trans hsame) ho'
    | case10 o word letters rest hword ih =>
      obtain ⟨o₁, ho₁, ho'⟩ := bind_eq_ok_iff.mp h
      obtain ⟨hreport, hkept⟩ := setLetters_eq_ok ho₁
      rw [sourceWords_of_report (hword ▸ hreport)]
      exact ih o₁ (hkept.symm.trans hsame) ho'

/-- The same with the folder of the environment. -/
theorem ofArguments_sourceWords {folder : Option String} {arguments : List String}
    (h : ofArguments folder arguments = .ok o) :
    ∃ p, ofArguments folder (sourceWords arguments) = .ok p ∧ SameSources o p :=
  ((read_sourceWords arguments).bind (tracks_orFolder folder)).accepted (.refl unset) h

/-- Accepted command lines with the same words but for those that ask for another report have the
same sources. -/
theorem sameSources_of_sourceWords_eq {folder : Option String} {arguments arguments' : List String}
    (h : ofArguments folder arguments = .ok o) (h' : ofArguments folder arguments' = .ok p)
    (hwords : sourceWords arguments = sourceWords arguments') : SameSources o p := by
  obtain ⟨q, hq, hoq⟩ := ofArguments_sourceWords h
  obtain ⟨q', hq', hpq⟩ := ofArguments_sourceWords h'
  rw [hwords, hq'] at hq
  cases hq
  exact hoq.trans hpq.symm

end Options

end QueryTree.CommandLine
