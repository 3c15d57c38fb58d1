import DoRunner.Proofs.Echo.Conserved

/-!
# Notes about graph files

The export lines of a chunk write graphs into the cache directory, so a note about a graph there
is taken out of the output, and its path becomes an artifact if the graph was written. Notes about
other files are output like anything else.

Which notes are meant is decided by the text of a path: it must begin with the text of the cache
directory. That is less than lying in the directory, for which a slash must follow
(`liesInside_iff`): a directory beside it whose name only goes on where that of the cache directory
ends has files that begin with the same text. `reconcile_graphNotes` says what becomes of notes in
all cases, and exactly when none of them is mistaken; `reconcile_siblingDirectory` shows one that is.
-/

namespace DoRunner

/-! ## Paths -/

/-- The name of a numbered graph file: `graph`, digits, a point, and word characters. -/
def IsGraphName (name : Text) : Prop :=
  ∃ number extension, name = "graph".toList ++ number ++ '.' :: extension ∧
    number ≠ [] ∧ (∀ c ∈ number, isDigit c = true) ∧
    extension ≠ [] ∧ ∀ c ∈ extension, isWord c = true

/-- The text that the paths of everything in a directory begin with. -/
def directoryPart (root : Text) : Text :=
  if root.getLast? = some '/' then root else root ++ ['/']

/-- Whether a path leads from a directory to a numbered graph file, in it or further down. -/
def LiesInside (root path : Text) : Prop :=
  ∃ between name, path = directoryPart root ++ between ++ name ∧ IsGraphName name

theorem slash_notMem_of_isGraphName {name : Text} (h : IsGraphName name) : '/' ∉ name := by
  obtain ⟨number, extension, rfl, -, digits, -, word⟩ := h
  intro m
  rw [List.append_assoc, List.mem_append, List.mem_append, List.mem_cons] at m
  rcases m with m | m | m | m
  · exact absurd m (by decide)
  · exact absurd (digits _ m) (by decide)
  · exact absurd m (by decide)
  · exact absurd (word _ m) (by decide)

/-- What follows the last mark of a text is at the end of what follows any other mark. -/
theorem exists_of_append_mark {mark : Char} {s more t last : Text} (free : mark ∉ last)
    (same : s ++ mark :: more = t ++ mark :: last) : ∃ between, more = between ++ last := by
  rcases List.append_eq_append_iff.mp same with ⟨x, rfl, ends⟩ | ⟨x, rfl, ends⟩
  · cases x with
    | nil => exact ⟨[], (List.cons.inj ends).2⟩
    | cons c x => exact ⟨x ++ [mark], by simpa using (List.cons.inj ends).2⟩
  · cases x with
    | nil => exact ⟨[], (List.cons.inj ends).2.symm⟩
    | cons c x =>
      refine absurd ?_ free
      rw [(List.cons.inj ends).2]
      exact List.mem_append_right x List.mem_cons_self

theorem directoryPart_getLast (root : Text) : ∃ front, directoryPart root = front ++ ['/'] := by
  unfold directoryPart
  split
  · rename_i ends
    obtain ⟨front, rfl⟩ := List.getLast?_eq_some_iff.mp ends
    exact ⟨front, rfl⟩
  · exact ⟨root, rfl⟩

/-- **The path of a graph file lies in a directory exactly when it begins with the directory and a
slash.** -/
theorem liesInside_iff {root directory name : Text} (graph : IsGraphName name) :
    LiesInside root (directory ++ '/' :: name) ↔
      directoryPart root <+: directory ++ '/' :: name := by
  constructor
  · rintro ⟨between, other, same, -⟩
    rw [same, List.append_assoc]
    exact List.prefix_append _ _
  · rintro ⟨more, same⟩
    obtain ⟨front, ends⟩ := directoryPart_getLast root
    -- there is no slash in the name, so it begins behind the slash of the directory
    have split : front ++ '/' :: more = directory ++ '/' :: name := by
      rw [← same, ends, List.append_assoc, List.singleton_append]
    obtain ⟨between, rfl⟩ := exists_of_append_mark (slash_notMem_of_isGraphName graph) split
    exact ⟨between, name, by rw [← same, List.append_assoc], graph⟩

/-- Behind the text of a directory, a slash tells whether something is in it. -/
theorem directoryPart_prefix_iff {root more : Text} :
    directoryPart root <+: root ++ more ↔ root.getLast? = some '/' ∨ more.head? = some '/' := by
  unfold directoryPart
  split
  · rename_i ends
    exact iff_of_true (List.prefix_append root more) (.inl ends)
  · rename_i goesOn
    rw [List.prefix_append_right_inj, or_iff_right goesOn]
    cases more with
    | nil => simp
    | cons c more => simp [List.cons_prefix_cons, eq_comm]

namespace GraphNote

/-! ## What a note says -/

theorem graphName?_eq_some {endings : List Text} {t found : Text}
    (h : graphName? endings t = some found) : ∃ name, found = '/' :: name ∧ IsGraphName name := by
  unfold graphName? at h
  split at h
  · exact absurd h (by simp)
  · rename_i rest _
    dsimp only at h
    split at h
    · rename_i behind _
      split at h
      · rename_i good
        obtain ⟨number, extension, -⟩ := good
        refine ⟨"graph".toList ++ rest.takeWhile isDigit ++ '.' :: behind.takeWhile isWord,
          (Option.some.inj h).symm, _, _, rfl, number, ?_, extension, ?_⟩
        · intro c m
          exact List.mem_takeWhile_imp m
        · intro c m
          exact List.mem_takeWhile_imp m
      · exact absurd h (by simp)
    · exact absurd h (by simp)

/-- The path in a note ends in a slash and the name of a graph file. -/
theorem path?_eq_some {endings : List Text} {t path : Text} (h : path? endings t = some path) :
    ∃ directory name, path = directory ++ '/' :: name ∧ IsGraphName name := by
  induction t generalizing path with
  | nil => exact absurd h (by simp [path?])
  | cons c t ih =>
    rw [path?] at h
    split at h
    · exact absurd h (by simp)
    · split at h
      · rename_i found graph
        obtain ⟨name, rfl, isName⟩ := graphName?_eq_some graph
        exact ⟨[c], name, (Option.some.inj h).symm, isName⟩
      · obtain ⟨shorter, found, rfl⟩ := Option.map_eq_some_iff.mp h
        obtain ⟨directory, name, rfl, isName⟩ := ih found
        exact ⟨c :: directory, name, rfl, isName⟩

/-- Whether a line is a note, written or not found, about a path. -/
def Notes (line path : Text) : Prop := written? line = some path ∨ notFound? line = some path

theorem Notes.exists_notePath {line path : Text} (h : Notes line path) :
    ∃ endings, notePath? endings line = some path := by
  rcases h with h | h
  · exact ⟨_, h⟩
  · exact ⟨_, h⟩

theorem Notes.isGraphPath {line path : Text} (h : Notes line path) :
    ∃ directory name, path = directory ++ '/' :: name ∧ IsGraphName name := by
  obtain ⟨endings, found⟩ := h.exists_notePath
  obtain ⟨rest, -, found⟩ := Option.bind_eq_some_iff.mp found
  exact path?_eq_some found

/-- A note begins with a parenthesis or one of its first words. -/
theorem Notes.exists_head {line path : Text} (h : Notes line path) :
    ∃ c t, line = c :: t ∧ (c = '(' ∨ c = 'n' ∨ c = 'f') := by
  obtain ⟨endings, found⟩ := h.exists_notePath
  obtain ⟨rest, begins, -⟩ := Option.bind_eq_some_iff.mp found
  cases line with
  | nil => exact nomatch begins
  | cons c t =>
    refine ⟨c, t, rfl, ?_⟩
    by_cases parenthesis : c = '('
    · exact .inl parenthesis
    · have same : afterParenthesis (c :: t) = c :: t := by
        unfold afterParenthesis
        split
        · rename_i opened
          exact absurd (List.cons.inj opened).1 parenthesis
        · rfl
      rw [same] at begins
      cases word : Text.after? "note: ".toList (c :: t) with
      | some behind =>
        exact .inr (.inl (List.cons.inj (Text.after?_eq_some_iff.mp word)).1)
      | none =>
        rw [word, Option.getD_none, Text.after?_eq_some_iff] at begins
        exact .inr (.inr (List.cons.inj begins).1)

/-- A note carries no marker of an echo, so that no expected line ever claims it. -/
theorem Notes.unmarked {line path : Text} (h : Notes line path) :
    Reconcile.unmarked line = true := by
  obtain ⟨c, t, rfl, rfl | rfl | rfl⟩ := h.exists_head
  · rfl
  · rfl
  · rfl

end GraphNote

namespace Reconcile

open GraphNote

/-! ## What becomes of notes -/

/-- The path of the artifact that a line reports. -/
def artifact? (cacheRoot line : Text) : Option Text :=
  (written? line).filter (Text.startsWith cacheRoot)

/-- The path of an artifact begins with the text of the cache directory, and a slash tells whether it
lies in it. -/
theorem artifact?_eq_some {root line path : Text} (h : artifact? root line = some path) :
    ∃ more, path = root ++ more ∧
      (LiesInside root path ↔ root.getLast? = some '/' ∨ more.head? = some '/') := by
  obtain ⟨written, begins⟩ := Option.filter_eq_some_iff.mp h
  obtain ⟨more, rfl⟩ := Text.startsWith_iff.mp begins
  obtain ⟨directory, name, split, graph⟩ := Notes.isGraphPath (.inl written)
  refine ⟨more, rfl, ?_⟩
  rw [← directoryPart_prefix_iff, split]
  exact liesInside_iff graph

section Walk

variable (cacheRoot : Text)

theorem claim?_of_unmarked {line : Text} (h : unmarked line = true) (expected : List ExpectedLine) :
    claim? line expected = none := by
  cases claimed : claim? line expected with
  | none => rfl
  | some found =>
    obtain ⟨skipped, -, -, tied⟩ := exists_skipped claimed
    rw [unmarked_of_tied tied] at h
    exact absurd h (by decide)

/-- An artifact is added by the line that reports it, wherever it stands. -/
theorem artifacts_step (s : State) (line : Text) :
    (step cacheRoot s line).artifacts = (artifact? cacheRoot line).toList ++ s.artifacts := by
  cases artifact : artifact? cacheRoot line with
  | some path =>
    -- a note is never claimed as an echo, so it is always looked at
    have note : Notes line path := .inl (Option.filter_eq_some_iff.mp artifact).1
    rw [step, claim?_of_unmarked note.unmarked]
    dsimp only
    rw [keep, show (written? line).filter (Text.startsWith cacheRoot) = some path from artifact]
    rfl
  | none =>
    rw [step]
    split
    · rfl
    · rw [keep, show (written? line).filter (Text.startsWith cacheRoot) = none from artifact]
      dsimp only
      split
      · rfl
      · split
        · rfl
        · rfl

theorem artifacts_foldl (s : State) (ls : List Text) :
    (ls.foldl (step cacheRoot) s).artifacts
      = (ls.filterMap (artifact? cacheRoot)).reverse ++ s.artifacts := by
  induction ls generalizing s with
  | nil => rfl
  | cons line ls ih =>
    rw [List.foldl_cons, ih, artifacts_step]
    cases artifact : artifact? cacheRoot line with
    | none => rw [List.filterMap_cons_none artifact]; rfl
    | some path =>
      rw [List.filterMap_cons_some artifact, List.reverse_cons, List.append_assoc]
      rfl

end Walk

section Recovered

variable (raw : Text) (expected : List ExpectedLine) (sentinel : Text) (returnCode : Int)
  (cache : CachePaths)

/-- The artifacts are what the lines before the sentinel report. -/
theorem artifacts_reconcile :
    (reconcile raw expected sentinel returnCode cache).artifacts =
      (beforeSentinel sentinel (Echo.joinWrapped (Terminal.plain raw))).filterMap
        (artifact? cache.rootForCommands) := by
  rw [reconcile_eq]
  dsimp only
  rw [afterLog, artifacts_foldl]
  dsimp only [State.initial]
  rw [List.append_nil, List.reverse_reverse]

/-- What is recovered are lines kept from between the echoes. -/
theorem exists_kept :
    ∃ kept, Keeps cache.rootForCommands
        (betweenEchoes expected sentinel (Echo.joinWrapped (Terminal.plain raw))) kept ∧
      (reconcile raw expected sentinel returnCode cache).outputLines = trimBlankLines kept := by
  obtain ⟨kept, keeps, output⟩ := keeps_foldl_unstarted cache.rootForCommands
    (s := .initial expected) rfl
    (beforeSentinel sentinel (Echo.joinWrapped (Terminal.plain raw)))
  refine ⟨kept, keeps, outputLines_of_output ?_ ?_⟩
  · rw [reconcile_eq, afterLog, output]
    dsimp only [State.initial]
    rw [List.append_nil, List.reverse_reverse]
  · intro line m
    have before := (List.dropWhile_sublist _).subset
      ((List.tail_sublist _).subset (keeps.sublist.subset m))
    exact Echo.notMem_lf_of_mem_joinWrapped ((List.takeWhile_sublist _).subset before)

/-- A note between the echoes is output unless it reports a graph of the cache directory. -/
theorem note_mem_outputLines {line path : Text} (note : Notes line path)
    (m : line ∈ betweenEchoes expected sentinel (Echo.joinWrapped (Terminal.plain raw))) :
    line ∈ (reconcile raw expected sentinel returnCode cache).outputLines ↔
      reportsGraph cache.rootForCommands line = false := by
  obtain ⟨kept, keeps, output⟩ := exists_kept raw expected sentinel returnCode cache
  -- trimming drops blank lines only, and no note is one of those
  have conserved := congrArg (line ∈ ·) keeps.trimmed.unmarked
  rw [← output] at conserved
  simpa [m, note.unmarked] using conserved

end Recovered

/-- Only files of the cache directory have become artifacts, and the notes about others are in the
output. -/
structure Confined (cacheRoot : Text) (between : List Text) (result : Reconciled) : Prop where
  /-- Artifacts lie in the cache directory. -/
  artifacts : ∀ path ∈ result.artifacts, LiesInside cacheRoot path
  /-- Notes about files outside are kept. -/
  notes : ∀ line ∈ between, (∃ path, Notes line path ∧ ¬ LiesInside cacheRoot path) →
    line ∈ result.outputLines

/-- **What becomes of notes about graph files.** The artifacts are the files that a line before the
sentinel reports as written and whose paths begin with the text of the cache directory. Such a file
lies in the cache directory if a slash follows that text, or ends it, and not otherwise. Between the
echoes, a note is output exactly when no path in it begins with that text. So nothing outside the
cache directory is taken for its own exactly when every path that is counted as an artifact, and every
path in a note that is dropped, lies inside. -/
theorem reconcile_graphNotes (raw : Text) (expected : List ExpectedLine) (sentinel : Text)
    (returnCode : Int) (cache : CachePaths) :
    let root := cache.rootForCommands
    let lines := Echo.joinWrapped (Terminal.plain raw)
    let before := beforeSentinel sentinel lines
    let between := betweenEchoes expected sentinel lines
    let result := reconcile raw expected sentinel returnCode cache
    result.artifacts = before.filterMap (artifact? root) ∧
    (∀ path ∈ result.artifacts, ∃ more, path = root ++ more ∧
      (LiesInside root path ↔ root.getLast? = some '/' ∨ more.head? = some '/')) ∧
    (∀ line ∈ between, ∀ path, Notes line path →
      (line ∈ result.outputLines ↔ reportsGraph root line = false)) ∧
    (Confined root between result ↔
      (∀ line ∈ before, ∀ path, artifact? root line = some path → LiesInside root path) ∧
      ∀ line ∈ between, reportsGraph root line = true →
        ∀ path, Notes line path → LiesInside root path) := by
  intro root lines before between result
  have artifacts : result.artifacts = before.filterMap (artifact? root) :=
    artifacts_reconcile raw expected sentinel returnCode cache
  have reported : ∀ path, path ∈ result.artifacts ↔
      ∃ line ∈ before, artifact? root line = some path := by
    intro path
    rw [artifacts, List.mem_filterMap]
  have noteKept : ∀ line ∈ between, ∀ path, Notes line path →
      (line ∈ result.outputLines ↔ reportsGraph root line = false) := by
    intro line m path note
    exact note_mem_outputLines raw expected sentinel returnCode cache note m
  refine ⟨artifacts, ?_, noteKept, ?_⟩
  · intro path m
    obtain ⟨line, -, artifact⟩ := (reported path).mp m
    exact artifact?_eq_some artifact
  · constructor
    · intro confined
      refine ⟨?_, ?_⟩
      · intro line m path artifact
        exact confined.artifacts path ((reported path).mpr ⟨line, m, artifact⟩)
      · intro line m taken path note
        by_contra outside
        have output := confined.notes line m ⟨path, note, outside⟩
        rw [noteKept line m path note, taken] at output
        exact absurd output (by decide)
    · rintro ⟨artifactsInside, notesInside⟩
      refine ⟨?_, ?_⟩
      · intro path m
        obtain ⟨line, before, artifact⟩ := (reported path).mp m
        exact artifactsInside line before path artifact
      · rintro line m ⟨path, note, outside⟩
        rw [noteKept line m path note, Bool.eq_false_iff]
        exact fun taken => outside (notesInside line m taken path note)

/-- Notes about a file further down in the cache directory, about one that is not there, and about
one elsewhere: none is mistaken. -/
theorem reconcile_graphNotes_elsewhere :
    let root := "c".toList
    let expected : List ExpectedLine := [⟨"sc x".toList, .statement⟩]
    let written := "file c/s/graph0.svg saved"
    let missing := "(note: file c/graph9.svg not found)"
    let elsewhere := "file /e/graph1.svg saved"
    let raw := (". sc x\n" ++ written ++ "\n" ++ missing ++ "\n" ++ elsewhere
      ++ "\n. * done").toList
    let between := [written, missing, elsewhere].map String.toList
    let path := "c/s/graph0.svg".toList
    let result := reconcile raw expected "* done".toList 0 ⟨root⟩
    (path ∈ result.artifacts ∧ ∃ more, path = root ++ more ∧
      (LiesInside root path ↔ root.getLast? = some '/' ∨ more.head? = some '/')) ∧
    (elsewhere.toList ∈ between ∧ Notes elsewhere.toList "/e/graph1.svg".toList ∧
      (elsewhere.toList ∈ result.outputLines ↔ reportsGraph root elsewhere.toList = false)) ∧
    result.artifacts = [path] ∧ result.outputLines = [elsewhere.toList] ∧
    Confined root between result := by
  intro root expected written missing elsewhere raw between path result
  have facts : result.artifacts = [path] ∧ result.outputLines = [elsewhere.toList] ∧
      betweenEchoes expected "* done".toList (Echo.joinWrapped (Terminal.plain raw)) = between := by
    decide +kernel
  obtain ⟨artifacts, output, within⟩ := facts
  have spoken : written? written.toList = some path ∧ notFound? written.toList = none ∧
      written? missing.toList = none ∧
      notFound? missing.toList = some "c/graph9.svg".toList ∧
      reportsGraph root elsewhere.toList = false ∧
      written? elsewhere.toList = some "/e/graph1.svg".toList := by
    decide +kernel
  obtain ⟨ofWritten, notOfWritten, notOfMissing, ofMissing, kept, ofElsewhere⟩ := spoken
  have name : ∀ digit, isDigit digit = true →
      IsGraphName ("graph".toList ++ [digit] ++ ".svg".toList) := by
    intro digit isDigit
    exact ⟨[digit], "svg".toList, rfl, by simp, by simpa using isDigit, by decide,
      List.all_eq_true.mp (by decide)⟩
  have inside : LiesInside root path := ⟨"s/".toList, _, by decide, name '0' (by decide)⟩
  have missingInside : LiesInside root "c/graph9.svg".toList :=
    ⟨[], _, by decide, name '9' (by decide)⟩
  obtain ⟨reported, places, notes, confined⟩ :=
    reconcile_graphNotes raw expected "* done".toList 0 ⟨root⟩
  rw [within] at notes confined
  have member : path ∈ result.artifacts := artifacts ▸ List.mem_singleton_self path
  have found : Notes elsewhere.toList "/e/graph1.svg".toList := .inl ofElsewhere
  have among : elsewhere.toList ∈ between := by decide
  refine ⟨⟨member, places path member⟩, ⟨among, found, notes _ among _ found⟩, artifacts, output,
    confined.mpr ⟨?_, ?_⟩⟩
  · intro line m other artifact
    have counted : other ∈ result.artifacts := by
      rw [show result.artifacts = _ from reported]
      exact List.mem_filterMap.mpr ⟨line, m, artifact⟩
    rw [artifacts] at counted
    rw [List.mem_singleton.mp counted]
    exact inside
  · intro line m taken other note
    rcases List.mem_cons.mp m with rfl | m
    · rcases note with note | note
      · rw [← Option.some.inj (ofWritten.symm.trans note)]
        exact inside
      · exact absurd (notOfWritten.symm.trans note) (by simp)
    rcases List.mem_cons.mp m with rfl | m
    · rcases note with note | note
      · exact absurd (notOfMissing.symm.trans note) (by simp)
      · rw [← Option.some.inj (ofMissing.symm.trans note)]
        exact missingInside
    · rw [List.mem_singleton.mp m] at taken
      exact absurd (taken.symm.trans kept) (by decide)

/-- Beside the cache directory `c`, the files of a directory `c2` are taken for those
of the session: one becomes an artifact, and the notes about both are lost. -/
theorem reconcile_siblingDirectory :
    let root := "c".toList
    let expected : List ExpectedLine := [⟨"sc x".toList, .statement⟩]
    let written := "file c2/graph0.svg saved"
    let missing := "file c2/graph1.svg not found"
    let raw := (". sc x\n" ++ written ++ "\n" ++ missing ++ "\n. * done").toList
    let between := [written, missing].map String.toList
    let result := reconcile raw expected "* done".toList 0 ⟨root⟩
    betweenEchoes expected "* done".toList (Echo.joinWrapped (Terminal.plain raw)) = between ∧
    result.artifacts = ["c2/graph0.svg".toList] ∧ result.output = [] ∧
    result.error = none ∧ ¬ Confined root between result := by
  intro root expected written missing raw between result
  have facts : betweenEchoes expected "* done".toList (Echo.joinWrapped (Terminal.plain raw))
        = between ∧
      result.artifacts = ["c2/graph0.svg".toList] ∧ result.output = [] ∧
      result.error = none := by
    decide +kernel
  obtain ⟨within, artifacts, output, error⟩ := facts
  refine ⟨within, artifacts, output, error, fun confined => ?_⟩
  obtain ⟨more, name, split, -⟩ :=
    confined.artifacts "c2/graph0.svg".toList (artifacts ▸ List.mem_singleton_self _)
  have begins : directoryPart root <+: "c2/graph0.svg".toList :=
    ⟨more ++ name, by rw [split, List.append_assoc]⟩
  exact absurd begins (by decide)

end Reconcile

end DoRunner
