import DoRunner.Proofs.Chunk.OneLine

/-!
# Buffers of lines that open nothing

Where lines end statements, a line that opens nothing is read as it stands, and the line feed behind
it ends it. So a buffer of such lines goes through both passes unchanged, and is complete
(`ofCode_bareLines`).
-/

namespace DoRunner

namespace Comments

/-- Outside comments, the line feed that ends a line is as good as the end of the text. -/
theorem rootStep_line {s : State} (newline : s.delimiter = .newline) {line : Text}
    (oneLine : '\n' ∉ line) (nonempty : line ≠ []) (more : Text) :
    rootStep s (line ++ '\n' :: more) = rootStep s line := by
  have opener : plainMove s (line ++ '\n' :: more) = plainMove s line := by
    rw [plainMove, plainMove, slashComment?_eq, slashComment?_eq,
      Text.startsWith_append_cons (by decide), Text.startsWith_append_cons (by decide),
      Text.startsWith_append_cons (by decide), Quote.opens?_append_cons (by decide)]
  have directive : directiveMove s (line ++ '\n' :: more) = directiveMove s line := by
    obtain ⟨c, t, rfl⟩ := List.exists_cons_of_ne_nil nonempty
    have tail : '\n' ∉ t := fun m => oneLine (List.mem_cons_of_mem c m)
    rw [directiveMove, directiveMove, List.cons_append, List.tail_cons, List.tail_cons,
      Text.firstLine_append_lf tail, Text.firstLine_of_notMem tail]
  unfold rootStep
  rw [newline, Text.firstLine_append_lf oneLine, Text.firstLine_of_notMem oneLine, starOpener?_line,
    opener, directive]

section Lines

variable {s : State} (root : s.modes = .atRoot) (newline : s.delimiter = .newline)
  (noMata : s.inMata = false)

include root newline noMata

/-- A bare line is read with its line feed. -/
theorem run_bareLine {line : Text} (bare : Text.Bare line)
    (start : s.past.atLineStart = true → Line.Ordinary line) (more : Text) :
    run s (line ++ '\n' :: more)
      = run { s with past := s.past.extend .plainText (line ++ ['\n']) } more := by
  induction line generalizing s with
  | nil =>
    rw [List.nil_append, run_lf_outside newline (.inl (by rw [root]; rfl)), lineAfter, ← root]
    rfl
  | cons c t ih =>
    have oneLine : '\n' ∉ c :: t := fun m => (bare _ m).1 rfl
    have settled : settle s c = s := by
      rw [settle, root]
      rfl
    have acts : act s (c :: (t ++ '\n' :: more))
        = (⟨.plainText, 0, s.modes⟩, s.delimiter, s.inMata) := by
      have alone := act_bare root noMata bare start (by rw [newline]; simp)
      have atRoot : ∀ rest, act s rest = rootStep s rest := fun rest => by
        rw [act, root]
        rfl
      rw [atRoot, ← List.cons_append, rootStep_line newline oneLine (List.cons_ne_nil c t), ← atRoot,
        alone, newline]
      rfl
    rw [List.cons_append, run_cons, step_of_act settled acts]
    refine @ih { s with past := ⟨.plainText, c⟩ :: s.past } root newline noMata bare.tail ?_
    intro begins
    exact absurd (beq_iff_eq.mp begins) (bare c List.mem_cons_self).1

/-- **Bare lines are read as statement text,** line feeds and all. -/
theorem run_bareLines {lines : List Text} (nonempty : lines ≠ [])
    (start : s.past.atLineStart = true)
    (each : ∀ line ∈ lines, Text.Bare line ∧ Line.Ordinary line) :
    run s (Text.unlines lines)
      = { s with past := s.past.extend .plainText (Text.unlines lines) } := by
  induction lines generalizing s with
  | nil => exact absurd rfl nonempty
  | cons line lines ih =>
    obtain ⟨bare, ordinary⟩ := each line List.mem_cons_self
    cases lines with
    | nil =>
      have alone := @run_bare s root noMata line [] (by rwa [List.append_nil])
        (fun _ => by rwa [List.append_nil]) (by rw [newline]; simp)
      rw [List.append_nil, run] at alone
      rw [Text.unlines, alone, newline]
      rfl
    | cons next lines =>
      rw [Text.unlines, run_bareLine root newline noMata bare fun _ => ordinary]
      refine (@ih { s with past := s.past.extend .plainText (line ++ ['\n']) } root newline noMata
        (List.cons_ne_nil _ _) ?_ fun l m => each l (List.mem_cons_of_mem _ m)).trans ?_
      · exact Past.atLineStart_extend_of_lf List.getLast?_concat _ _
      · rw [← Past.extend_append, List.append_assoc]
        rfl

end Lines

end Comments

namespace Blocks

/-- **Bare lines open no block.** -/
theorem modes_bareLines {lines : List Text}
    (each : ∀ line ∈ lines, Text.Bare line ∧ Line.Ordinary line) :
    (run .initial (Text.unlines lines)).modes = .atRoot := by
  induction lines with
  | nil =>
    rw [Text.unlines, run]
    rfl
  | cons line lines ih =>
    obtain ⟨bare, ordinary⟩ := each line List.mem_cons_self
    cases lines with
    | nil =>
      have alone := modes_bare bare ordinary.noBlock (.inl rfl)
      rwa [List.append_nil] at alone
    | cons next lines =>
      have first := modes_bare bare ordinary.noBlock (.inr rfl)
      have ended : (line ++ ['\n']).getLast? = some '\n' := List.getLast?_concat
      have split : Text.unlines (line :: next :: lines)
          = line ++ ['\n'] ++ Text.unlines (next :: lines) := by
        rw [Text.unlines, List.append_assoc]
        rfl
      rw [split, run_append _ (Text.whole_of_getLast? ended),
        (run_alike (alike_initial ended first) _).modes]
      exact ih fun l m => each l (List.mem_cons_of_mem _ m)

end Blocks

namespace Analysis

/-- **A buffer of bare lines** is complete, leaves the mode, and is its own statements. -/
theorem ofCode_bareLines {lines : List Text} (nonempty : lines ≠ [])
    (plain : '\r' ∉ Text.unlines lines)
    (each : ∀ line ∈ lines, Text.Bare line ∧ Line.Ordinary line) :
    (ofCode (Text.unlines lines) .newline).incomplete? = none ∧
      (ofCode (Text.unlines lines) .newline).finalMode = .newline ∧
      (ofCode (Text.unlines lines) .newline).cleanText = Text.unlines lines := by
  have comments := comments_ofCode plain .newline
  have final := Comments.run_bareLines (s := .initial .newline) rfl rfl rfl nonempty rfl each
  have clean : (ofCode (Text.unlines lines) .newline).cleanText = Text.unlines lines := by
    rw [cleanText_ofCode plain, final, Comments.statements_extend]
    exact List.flatMap_singleton' (Text.unlines lines)
  have mode : (ofCode (Text.unlines lines) .newline).finalMode = .newline := by
    rw [finalMode, comments, scanComments, final]
    rfl
  refine ⟨incomplete?_of_clean ?_ ?_ ?_, mode, clean⟩
  · show (scanBlocks (ofCode (Text.unlines lines) .newline).cleanText).openBlocks = 0
    rw [clean]
    exact congrArg ModeStack.openBlocks (Blocks.modes_bareLines each)
  · rw [comments, scanComments]
    dsimp only
    rw [final]
    refine if_neg fun continued => ?_
    obtain ⟨mark, last, kind⟩ := Option.map_eq_some_iff.mp continued
    rcases Past.mem_extend (List.mem_of_head? last) with plainText | before
    · rw [plainText] at kind
      exact absurd kind (by simp)
    · exact absurd before List.not_mem_nil
  · rw [mode]
    exact fun explicit => absurd explicit Bool.false_ne_true

/-- One such line is complete, too. -/
theorem complete_newline {line : Text} (plain : '\r' ∉ line) (ordinary : Line.Ordinary line)
    (bare : Text.Bare line) :
    (ofCode line .newline).incomplete? = none ∧ (ofCode line .newline).finalMode = .newline := by
  have each : ∀ l ∈ [line], Text.Bare l ∧ Line.Ordinary l := by
    intro l m
    rw [List.mem_singleton.mp m]
    exact ⟨bare, ordinary⟩
  obtain ⟨complete, mode, -⟩ := ofCode_bareLines (List.cons_ne_nil line []) plain each
  exact ⟨complete, mode⟩

end Analysis

end DoRunner
