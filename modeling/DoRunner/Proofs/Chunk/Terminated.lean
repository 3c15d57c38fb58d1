import DoRunner.Proofs.Chunk.Composition
import DoRunner.Proofs.Source.Terminated

/-!
# Buffers that end with a terminator

In a session whose statements end with a semicolon, a buffer can be cut behind any semicolon that
ends a line, and the parts sent one after another: what is sent is the same
(`Analysis.ofCode_append_terminated`).

The one exception is a part that begins with a line comment without indentation. Behind the
semicolon the comment is one; at the start of a buffer its slashes are statement text. So nothing is
lost by saying that a part is always read as it is read behind a line with nothing but a terminator.
-/

namespace DoRunner

namespace Text

/-- Blanks at the beginning do not count, and neither do the lines that they make. -/
theorem trimmedLines_blank_append {w : Text} (blank : Text.blank w = true) (t : Text) :
    trimmedLines (w ++ t) = trimmedLines t := by
  induction w with
  | nil => rfl
  | cons c w ih =>
    have rest : Text.blank w = true := blank_of_suffix (List.suffix_cons c w) blank
    rw [List.cons_append, ← ih rest]
    by_cases hc : c = '\n'
    · rw [hc]
      exact trimmedLines_append_lf [] (w ++ t)
    · -- the blank joins the first line, where it is trimmed off
      have isBlank : Text.blank [c] = true := by
        rw [Text.blank, List.all_cons, isBlank_of_blank blank c List.mem_cons_self]
        rfl
      generalize w ++ t = t
      unfold trimmedLines lines
      rw [splitAt, if_neg hc]
      cases hs : splitAt '\n' t with
      | nil => exact absurd hs (splitAt_ne_nil _ _)
      | cons line more =>
        have trimmed : trim (c :: line) = trim line := by
          unfold trim
          rw [← List.singleton_append, trimStart_append_blank isBlank]
        rw [List.map_cons, List.map_cons, trimmed]

/-- Blanks make no lines. -/
theorem trimmedLines_of_blank {w : Text} (blank : Text.blank w = true) : trimmedLines w = [] := by
  have nothing := trimmedLines_blank_append blank []
  rwa [List.append_nil] at nothing

end Text

theorem normalizeNewlines_append {a : Text} (plain : '\r' ∉ a) (b : Text) :
    normalizeNewlines (a ++ b) = a ++ normalizeNewlines b := by
  induction a with
  | nil => rfl
  | cons c a ih =>
    have hc : c ≠ '\r' := fun e => plain (e ▸ List.mem_cons_self)
    rw [List.cons_append, normalizeNewlines.eq_3 _ _ (fun _ e => absurd e hc) hc,
      ih fun m => plain (List.mem_cons_of_mem _ m), List.cons_append]

theorem Comments.statements_cons (mark : Mark) (past : Past) :
    statements (mark :: past) = statements past ++ CommentScan.statementChars mark := by
  rw [show mark :: past = [mark] ++ past from rfl, statements_append]
  exact congrArg (statements past ++ ·) (List.append_nil _)

namespace Analysis

theorem comments_ofCode {code : Text} (plain : '\r' ∉ code) (mode : DelimiterMode) :
    (ofCode code mode).comments = scanComments code mode := by
  show scanComments (normalizeNewlines code) mode = _
  rw [normalizeNewlines_of_notMem plain]

theorem cleanText_ofCode {code : Text} (plain : '\r' ∉ code) (mode : DelimiterMode) :
    (ofCode code mode).cleanText = Comments.statements (Comments.run (.initial mode) code).past := by
  show Comments.statements (Comments.run (.initial mode) (normalizeNewlines code)).past = _
  rw [normalizeNewlines_of_notMem plain]

variable {x : Analysis}

theorem blank_unterminatedTail (complete : x.incomplete? = none)
    (explicit : x.finalMode.isExplicit = true) : Text.blank (unterminatedTail x) = true := by
  by_contra missing
  have unended := Bool.eq_false_iff.mpr missing
  unfold incomplete? at complete
  split at complete
  · exact absurd complete (by simp)
  · split at complete
    · exact absurd complete (by simp)
    · exact absurd complete (by simp)
    · exact absurd (complete.symm.trans (if_pos ⟨explicit, unended⟩)) (by simp)

/-- Where no directive has entered the explicit mode, only terminators count. -/
theorem unterminatedTail_of_never (since : x.comments.explicitSince = none) :
    unterminatedTail x = (afterLastTerminator x.comments.marks).map (·.char) := by
  have shorter : (afterLastTerminator x.comments.marks).length ≤ x.comments.marks.length := by
    have sublist := List.takeWhile_sublist (l := x.comments.marks.reverse)
      fun mark => mark.kind != .semicolonDelimiter
    simpa [afterLastTerminator] using sublist.length_le
  unfold unterminatedTail
  rw [since, Option.getD_none, dropBytes]
  dsimp only
  rw [if_neg (by omega)]

end Analysis

/-! ## The border -/

/-- A buffer that ends with a terminator at the end of its last line, and in the semicolon mode
throughout. -/
structure EndsTerminated (code : Text) : Prop where
  /-- Lines end in line feeds. -/
  plain : '\r' ∉ code
  /-- The last line ends with a semicolon. -/
  ended : ∃ front, code = front ++ [';', '\n']
  /-- Nothing is missing. -/
  complete : (Analysis.ofCode code .semicolon).incomplete? = none
  /-- No comment and no string is open. -/
  modes : (Comments.run (.initial .semicolon) code).modes.isRoot = true
  /-- Semicolons still end statements. -/
  delimiter : (Comments.run (.initial .semicolon) code).delimiter = .semicolon
  /-- And no directive has made them. -/
  since : (Comments.run (.initial .semicolon) code).explicitSince = none

namespace EndsTerminated

variable {a : Text} (closed : EndsTerminated a)

include closed

theorem whole : Text.Whole a := by
  obtain ⟨front, rfl⟩ := closed.ended
  apply Text.whole_of_getLast?
  rw [List.getLast?_append]
  rfl

/-- No block comment is the last thing before a terminator. -/
theorem not_spills {rest : Text} (suffix : '*' :: '/' :: rest <:+ a) (b : Text) :
    ¬ Comments.Spills ('*' :: '/' :: rest) b := by
  intro spills
  have blank : Text.blank rest = true := spills.blank
  obtain ⟨front, rfl⟩ := closed.ended
  have backwards : rest.reverse ++ ['/', '*'] <+: '\n' :: ';' :: front.reverse := by
    have reversed := List.reverse_prefix.mpr suffix
    rwa [List.reverse_append, List.reverse_cons, List.reverse_cons, List.append_assoc] at reversed
  -- what follows the end of the comment is too short to end so, or holds the semicolon
  match hrest : rest.reverse with
  | [] =>
    rw [hrest, List.nil_append] at backwards
    exact absurd (List.cons_prefix_cons.mp backwards).1 (by decide)
  | [c] =>
    rw [hrest, List.singleton_append] at backwards
    have second := (List.cons_prefix_cons.mp (List.cons_prefix_cons.mp backwards).2).1
    exact absurd second (by decide)
  | c :: d :: _ =>
    rw [hrest, List.cons_append, List.cons_append] at backwards
    have second : d = ';' := (List.cons_prefix_cons.mp (List.cons_prefix_cons.mp backwards).2).1
    have m : ';' ∈ rest := by
      rw [← List.mem_reverse, hrest, ← second]
      exact List.mem_cons_of_mem _ List.mem_cons_self
    exact absurd (Text.isBlank_of_blank blank ';' m) (by decide)

/-- **More text behind the terminator** is read from where the pass stands there. -/
theorem run_append (b : Text) :
    Comments.run (.initial .semicolon) (a ++ b)
      = Comments.run (Comments.run (.initial .semicolon) a) b := by
  rcases Comments.run_append (s := .initial .semicolon) .root closed.whole b with same | spilled
  · exact same
  · obtain ⟨-, -, rest, -, -, suffix, spills, -⟩ := spilled
    exact absurd spills (closed.not_spills suffix b)

/-- The last two marks are those of the semicolon and of the line feed. -/
theorem marks : ∃ ending terminator before, (Comments.run (.initial .semicolon) a).past
    = ⟨ending, '\n'⟩ :: ⟨terminator, ';'⟩ :: before := by
  have chars : (Comments.run (.initial .semicolon) a).past.map (·.char) = a.reverse := by
    rw [← List.reverse_inj, List.reverse_reverse]
    exact Comments.text_run (.initial .semicolon) a
  generalize (Comments.run (.initial .semicolon) a).past = past at chars
  obtain ⟨front, rfl⟩ := closed.ended
  rw [List.reverse_append] at chars
  obtain ⟨ending, past, rfl, hc, chars⟩ := List.map_eq_cons_iff.mp chars
  obtain ⟨terminator, before, rfl, hd, -⟩ := List.map_eq_cons_iff.mp chars
  exact ⟨ending.kind, terminator.kind, before, by rw [← hc, ← hd]⟩

/-- What stands behind the last terminator is blank, since nothing is missing. -/
theorem tail : Text.blank ((Analysis.afterLastTerminator
    (Comments.run (.initial .semicolon) a).past.reverse).map (·.char)) = true := by
  have comments := Analysis.comments_ofCode closed.plain .semicolon
  have explicit : (Analysis.ofCode a .semicolon).finalMode.isExplicit = true := by
    rw [Analysis.finalMode, comments]
    show (Comments.run (.initial .semicolon) a).delimiter.isExplicit = true
    rw [closed.delimiter]
    rfl
  have blank := Analysis.blank_unterminatedTail closed.complete explicit
  rw [Analysis.unterminatedTail_of_never (by rw [comments]; exact closed.since), comments] at blank
  exact blank

theorem cleanText : (Analysis.ofCode a .semicolon).cleanText
    = Comments.statements (Comments.run (.initial .semicolon) a).past :=
  Analysis.cleanText_ofCode closed.plain .semicolon

/-- **The semicolon or the line feed behind it ends a statement,** and nothing but a blank follows. -/
theorem statements : ∃ front w, Text.blank w = true ∧
    (Analysis.ofCode a .semicolon).cleanText = front ++ '\n' :: w := by
  obtain ⟨ending, terminator, before, past⟩ := closed.marks
  have tail := closed.tail
  rw [closed.cleanText, past, Comments.statements_cons, Comments.statements_cons]
  by_cases first : ending = .semicolonDelimiter
  · rw [first]
    exact ⟨_, [], rfl, rfl⟩
  by_cases second : terminator = .semicolonDelimiter
  · have blank : Text.blank (CommentScan.statementChars ⟨ending, '\n'⟩) = true := by
      cases ending <;> decide
    refine ⟨Comments.statements before, _, blank, ?_⟩
    rw [second, List.append_assoc]
    rfl
  · -- otherwise the semicolon would be part of what lacks a terminator
    rw [past, Analysis.afterLastTerminator, List.reverse_reverse,
      List.takeWhile_cons_of_pos (by simpa using first),
      List.takeWhile_cons_of_pos (by simpa using second)] at tail
    have ink := Text.isBlank_of_blank tail ';' (by simp)
    exact absurd ink (by decide)

/-- So the lines of statements behind it are lines of their own. -/
theorem trimmedLines (t : Text) :
    Text.trimmedLines ((Analysis.ofCode a .semicolon).cleanText ++ t)
      = Text.trimmedLines (Analysis.ofCode a .semicolon).cleanText ++ Text.trimmedLines t := by
  obtain ⟨front, w, blank, clean⟩ := closed.statements
  rw [clean, List.append_assoc, List.cons_append, Text.trimmedLines_append_lf,
    Text.trimmedLines_append_lf, Text.trimmedLines_blank_append blank,
    Text.trimmedLines_of_blank blank, List.append_nil]

/-! ## The comment pass behind the terminator -/

theorem alike : Past.Alike [] (Comments.run (.initial .semicolon) a).past := by
  obtain ⟨ending, terminator, before, past⟩ := closed.marks
  exact Past.alike_of_lf (by rw [past]; rfl)

theorem lastInk? : (Comments.run (.initial .semicolon) a).past.lastInk? = some ';' := by
  obtain ⟨ending, terminator, before, past⟩ := closed.marks
  have lineFeed : isBlank '\n' = true := by decide
  have semicolon : ¬ isBlank ';' = true := by decide
  rw [past, Past.lastInk?_cons, if_pos lineFeed, Past.lastInk?_cons, if_neg semicolon]

/-- The pass differs from its first state in what stands before. -/
theorem beside : Comments.Beside [] (Comments.run (.initial .semicolon) a).past
    (Text.byteLength (Comments.run (.initial .semicolon) a).past.text) [] (.initial .semicolon)
    (Comments.run (.initial .semicolon) a) where
  modes := ModeStack.eq_atRoot closed.modes
  delimiter := closed.delimiter
  inMata := Comments.inMata_run rfl (by rw [closed.delimiter]; rfl) closed.since
  since := closed.since
  past := rfl
  past' := rfl

/-- **What begins with no comment is marked** as it is marked alone. -/
theorem marks_of_apart {b : Text} (apart : Text.beginsWithNote b = false) :
    (Comments.run (.initial .semicolon) (a ++ b)).delimiter
        = (Comments.run (.initial .semicolon) b).delimiter ∧
      (Comments.run (.initial .semicolon) (a ++ b)).past
        = (Comments.run (.initial .semicolon) b).past
          ++ (Comments.run (.initial .semicolon) a).past := by
  obtain ⟨marks, beside⟩ := Comments.run_beside closed.alike rfl closed.beside rfl apart
  rw [closed.run_append]
  refine ⟨beside.delimiter, ?_⟩
  rw [beside.past, beside.past', List.append_nil]

/-- **Everything is marked** as it is marked behind any other terminator. -/
theorem marks_of_terminated {a' : Text} (closed' : EndsTerminated a')
    (shorter : Text.byteLength a' ≤ Text.byteLength a) (b : Text) :
    ∃ marks, (Comments.run (.initial .semicolon) (a ++ b)).past
        = marks ++ (Comments.run (.initial .semicolon) a).past ∧
      (Comments.run (.initial .semicolon) (a' ++ b)).past
        = marks ++ (Comments.run (.initial .semicolon) a').past := by
  have alone := closed.beside
  have alone' := closed'.beside
  have alike : Past.Alike (Comments.run (.initial .semicolon) a').past
      (Comments.run (.initial .semicolon) a).past :=
    Past.alike_of_alike_nil closed'.alike closed.alike
  have length : Text.byteLength (Comments.run (.initial .semicolon) a).past.text
      = Text.byteLength (Comments.run (.initial .semicolon) a').past.text
        + (Text.byteLength a - Text.byteLength a') := by
    rw [Comments.text_run, Comments.text_run]
    show Text.byteLength a = Text.byteLength a' + _
    omega
  -- both stand behind the same last ink, the terminator
  have follows : Comments.Follows (Comments.run (.initial .semicolon) a').past
      (Comments.run (.initial .semicolon) a).past (Text.byteLength a - Text.byteLength a')
      (Comments.run (.initial .semicolon) a') (Comments.run (.initial .semicolon) a) :=
    ⟨alone.modes.trans alone'.modes.symm, alone.delimiter.trans alone'.delimiter.symm,
      alone.inMata.trans alone'.inMata.symm, by rw [closed.since, closed'.since]; rfl,
      [], rfl, rfl, fun _ => Or.inl (closed.lastInk?.trans closed'.lastInk?.symm)⟩
  obtain ⟨marks, past, past', -⟩ := (Comments.run_follows alike length follows b).past
  exact ⟨marks, by rw [closed.run_append, past'], by rw [closed'.run_append, past]⟩

end EndsTerminated

/-- No directive was in force if no line is one. -/
theorem EndsTerminated.of_noDirective {a : Text} (plain : '\r' ∉ a)
    (ended : ∃ front, a = front ++ [';', '\n'])
    (complete : (Analysis.ofCode a .semicolon).incomplete? = none)
    (modes : (Comments.run (.initial .semicolon) a).modes.isRoot = true)
    (undirected : ∀ line ∈ Text.lines a, Line.directive? line = none) : EndsTerminated a := by
  have never : ∀ line ∈ Text.lines a, Line.directive? line ≠ some .newline := by
    intro line m
    rw [undirected line m]
    exact nofun
  obtain ⟨delimiter, since⟩ := Comments.run_of_noDirective (s := .initial .semicolon) rfl never
  exact ⟨plain, ended, complete, modes, delimiter, since⟩

/-- A buffer with nothing but a terminator. -/
theorem endsTerminated_semicolon : EndsTerminated ";\n".toList :=
  ⟨by decide, ⟨[], rfl⟩, by decide +kernel, by decide +kernel, by decide +kernel, by decide +kernel⟩

namespace Analysis

/-! ## What is sent -/

theorem cleanText_append {a : Text} (closed : EndsTerminated a) (b : Text) :
    (ofCode (a ++ b) .semicolon).cleanText
      = Comments.statements (Comments.run (.initial .semicolon) (a ++ normalizeNewlines b)).past := by
  show Comments.statements (Comments.run _ (normalizeNewlines (a ++ b))).past = _
  rw [normalizeNewlines_append closed.plain]

/-- **Buffers can be cut behind a terminator.** Behind a buffer that ends with one, any text makes
the statements that it makes behind a line with nothing but a terminator; and if it does not begin
with a line comment without indentation, these are the statements that it makes alone. -/
theorem ofCode_append_terminated {a : Text} (closed : EndsTerminated a) (b : Text) :
    Text.trimmedLines (ofCode (a ++ b) .semicolon).cleanText
      = Text.trimmedLines (ofCode a .semicolon).cleanText
        ++ Text.trimmedLines (ofCode (";\n".toList ++ b) .semicolon).cleanText ∧
    (Text.beginsWithNote (normalizeNewlines b) = false →
      (ofCode (a ++ b) .semicolon).finalMode = (ofCode b .semicolon).finalMode ∧
      Text.trimmedLines (ofCode (a ++ b) .semicolon).cleanText
        = Text.trimmedLines (ofCode a .semicolon).cleanText
          ++ Text.trimmedLines (ofCode b .semicolon).cleanText ∧
      ∀ settings context contextA contextB,
        let both := (assemble (ofCode (a ++ b) .semicolon) settings context).1
        let first := (assemble (ofCode a .semicolon) settings contextA).1
        let second := (assemble (ofCode b .semicolon) settings contextB).1
        both.body = first.body ++ second.body ∧
        both.plotsInjected = first.plotsInjected + second.plotsInjected) := by
  constructor
  · have shorter : Text.byteLength ";\n".toList ≤ Text.byteLength a := by
      obtain ⟨front, rfl⟩ := closed.ended
      rw [Text.byteLength_append]
      exact Nat.le_add_left _ _
    obtain ⟨marks, behind, behind'⟩ :=
      closed.marks_of_terminated endsTerminated_semicolon shorter (normalizeNewlines b)
    have nothing : Text.trimmedLines (ofCode ";\n".toList .semicolon).cleanText = [] := by
      decide +kernel
    rw [cleanText_append closed, cleanText_append endsTerminated_semicolon, behind, behind',
      Comments.statements_append, Comments.statements_append, ← closed.cleanText,
      ← endsTerminated_semicolon.cleanText, closed.trimmedLines,
      endsTerminated_semicolon.trimmedLines, nothing, List.nil_append]
  · intro apart
    obtain ⟨delimiter, past⟩ := closed.marks_of_apart apart
    have lines : Text.trimmedLines (ofCode (a ++ b) .semicolon).cleanText
        = Text.trimmedLines (ofCode a .semicolon).cleanText
          ++ Text.trimmedLines (ofCode b .semicolon).cleanText := by
      rw [cleanText_append closed, past, Comments.statements_append, ← closed.cleanText,
        closed.trimmedLines]
      rfl
    refine ⟨?_, lines, ?_⟩
    · show (Comments.run _ (normalizeNewlines (a ++ b))).delimiter = _
      rw [normalizeNewlines_append closed.plain, delimiter]
      rfl
    · intro settings context contextA contextB
      dsimp only
      rw [body_assemble, body_assemble, body_assemble, plotsInjected_assemble,
        plotsInjected_assemble, plotsInjected_assemble, lines, List.countP_append, UInt32.ofNat_add]
      exact ⟨List.flatMap_append, rfl⟩

/-- A comment that is indented is one in either place. -/
theorem ofCode_append_indentedNote :
    let a := "sum x /* c */;\nlist \"a; b\";\n".toList
    let b := " // note\nscatter y\n x;\r\n".toList
    EndsTerminated a ∧ Text.beginsWithNote (normalizeNewlines b) = false ∧
    Text.trimmedLines (ofCode (a ++ b) .semicolon).cleanText
      = Text.trimmedLines (ofCode a .semicolon).cleanText ++ ["scatter y  x".toList] := by
  have closed : EndsTerminated "sum x /* c */;\nlist \"a; b\";\n".toList :=
    .of_noDirective (by decide) ⟨"sum x /* c */;\nlist \"a; b\"".toList, rfl⟩ (by decide +kernel)
      (by decide +kernel) (by decide +kernel)
  have apart : Text.beginsWithNote (normalizeNewlines " // note\nscatter y\n x;\r\n".toList)
      = false := by decide +kernel
  have alone : Text.trimmedLines (ofCode " // note\nscatter y\n x;\r\n".toList .semicolon).cleanText
      = ["scatter y  x".toList] := by decide +kernel
  obtain ⟨-, lines, -⟩ := (ofCode_append_terminated closed _).2 apart
  exact ⟨closed, apart, by rw [lines, alone]⟩

/-- **A line comment without indentation** is one behind a terminator, and statement text where
nothing stands before it. -/
theorem ofCode_append_note :
    let a := "sum y;\n".toList
    let b := "// note\nsum x;\n".toList
    EndsTerminated a ∧
    (Blocks.run .initial (ofCode a .semicolon).cleanText).modes.isRoot = true ∧
    Text.trimmedLines (ofCode (a ++ b) .semicolon).cleanText = ["sum y".toList, "sum x".toList] ∧
    Text.trimmedLines (ofCode a .semicolon).cleanText = ["sum y".toList] ∧
    Text.trimmedLines (ofCode b .semicolon).cleanText = ["// note sum x".toList] := by
  have closed : EndsTerminated "sum y;\n".toList :=
    .of_noDirective (by decide) ⟨"sum y".toList, rfl⟩ (by decide +kernel) (by decide +kernel)
      (by decide +kernel)
  exact ⟨closed, by decide +kernel, by decide +kernel, by decide +kernel, by decide +kernel⟩

end Analysis

end DoRunner
