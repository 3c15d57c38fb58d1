import DoRunner.Completeness
import DoRunner.Proofs.Chunk.Mirror
import DoRunner.Proofs.Chunk.OneLine
import DoRunner.Proofs.Source.TrailingBlanks

/-!
# Blanks behind a buffer

A buffer that can be run can be run with blanks behind it, line ends among them, and what is sent is
the same (`checkComplete_append_blank`). Both passes find in the blanks nothing but blanks, so the
statements are those of the buffer with blanks behind them (`TrailedBy.statementText`), and those are
trimmed off when the statements are cut into lines.

What stands behind the last terminator takes a look of its own. It is judged as raw text, and it
begins where the last terminator ends or the directive that asked for terminators, whichever is
later. With the blanks that end grows, and it may move into the blanks where these have joined the
directive; it is blank as it was either way (`blank_unterminatedTail_append`).
-/

namespace DoRunner

/-! ## Line ends -/

theorem blank_normalizeNewlines {w : Text} (blank : Text.blank w = true) :
    Text.blank (normalizeNewlines w) = true := by
  fun_induction normalizeNewlines w with
  | case1 t ih => exact ih (Text.blank_of_suffix ⟨['\r', '\n'], rfl⟩ blank)
  | case2 t single ih => exact ih (Text.blank_of_suffix (List.suffix_cons _ t) blank)
  | case3 c t _ _ ih =>
    rw [Text.blank, List.all_cons, Bool.and_eq_true] at blank ⊢
    exact ⟨blank.1, ih blank.2⟩
  | case4 => rfl

/-- Blanks behind the code are blanks behind the code with its line ends made line feeds. A carriage
return that ends the code and a line feed at the front of the blanks are one line end. -/
theorem normalizeNewlines_append_blank {w : Text} (blank : Text.blank w = true) (code : Text) :
    ∃ v, Text.blank v = true ∧ normalizeNewlines (code ++ w) = normalizeNewlines code ++ v := by
  fun_induction normalizeNewlines code with
  | case1 t ih =>
    obtain ⟨v, blankV, normalized⟩ := ih
    exact ⟨v, blankV, congrArg ('\n' :: ·) normalized⟩
  | case2 t single ih =>
    by_cases meets : ∃ more, t ++ w = '\n' :: more
    · -- the carriage return is the last character, and the line feed that it meets is a blank
      obtain ⟨more, met⟩ := meets
      cases t with
      | nil =>
        rw [List.nil_append] at met
        subst met
        exact ⟨normalizeNewlines more,
          blank_normalizeNewlines (Text.blank_of_suffix (List.suffix_cons _ more) blank), rfl⟩
      | cons c t => exact absurd (congrArg (· :: t) (List.cons.inj met).1) (single t)
    · obtain ⟨v, blankV, normalized⟩ := ih
      refine ⟨v, blankV, ?_⟩
      rw [List.cons_append, normalizeNewlines.eq_2 _ fun more met => meets ⟨more, met⟩, normalized]
      rfl
  | case3 c t _ other ih =>
    obtain ⟨v, blankV, normalized⟩ := ih
    refine ⟨v, blankV, ?_⟩
    rw [List.cons_append, normalizeNewlines.eq_3 _ _ (fun _ e => absurd e other) other, normalized]
    rfl
  | case4 => exact ⟨normalizeNewlines w, blank_normalizeNewlines blank, rfl⟩

/-! ## Statements -/

theorem CommentScan.blank_statementChars {mark : Mark} (blank : isBlank mark.char = true) :
    Text.blank (statementChars mark) = true := by
  unfold statementChars
  split
  · rfl
  · split
    · rfl
    · split
      · rfl
      · rw [Text.blank, List.all_cons, blank]
        rfl
    · rw [Text.blank, List.all_cons, blank]
      rfl

/-- Blanks behind a text are blanks behind its statements. -/
theorem TrailedBy.statementText {x y : CommentScan} {joined free : List Mark}
    (h : TrailedBy x y joined free) :
    ∃ v, Text.blank v = true ∧ y.statementText = x.statementText ++ v := by
  refine ⟨(joined ++ free).flatMap CommentScan.statementChars, ?_, ?_⟩
  · refine List.all_eq_true.mpr fun c m => ?_
    obtain ⟨mark, read, m⟩ := List.mem_flatMap.mp m
    have blank := Text.isBlank_of_blank h.blank mark.char (List.mem_map_of_mem read)
    exact Text.isBlank_of_blank (CommentScan.blank_statementChars blank) c m
  · rw [CommentScan.statementText, h.marks, List.flatMap_append]
    rfl

/-- Blanks at the end of a text are no lines and change none. -/
theorem Text.trimmedLines_append_blank {w : Text} (blank : Text.blank w = true) (t : Text) :
    trimmedLines (t ++ w) = trimmedLines t := by
  have line : Text.blank (firstLine w) = true := blank_firstLine blank
  have lastLine : trimmedLines (t ++ firstLine w) = trimmedLines t := by
    rw [trimmedLines, map_trim_lines_append line (notMem_firstLine w)]
    rfl
  by_cases lf : '\n' ∈ w
  · obtain ⟨rest, hw⟩ := exists_firstLine lf
    have blankRest : Text.blank rest = true :=
      blank_of_suffix ⟨firstLine w ++ ['\n'], by rw [List.append_assoc]; exact hw.symm⟩ blank
    rw [hw, ← List.append_assoc, trimmedLines_append_lf, trimmedLines_of_blank blankRest,
      List.append_nil]
    exact lastLine
  · rwa [firstLine_of_notMem lf] at lastLine

/-! ## What follows the last terminator -/

namespace Analysis

theorem afterLastTerminator_suffix (marks : List Mark) : afterLastTerminator marks <:+ marks := by
  rw [afterLastTerminator, ← List.reverse_prefix, List.reverse_reverse]
  exact List.takeWhile_prefix _

/-- The later one of two places decides, so the text behind it is blank if it is blank behind
either. -/
theorem blank_unterminatedTail_iff (a : Analysis) :
    Text.blank (unterminatedTail a) = true ↔
      Text.blank ((dropBytes (a.comments.explicitSince.getD 0) a.comments.marks).map (·.char)) = true ∨
        Text.blank ((afterLastTerminator a.comments.marks).map (·.char)) = true := by
  have first := dropBytes_suffix (a.comments.explicitSince.getD 0) a.comments.marks
  have second := afterLastTerminator_suffix a.comments.marks
  unfold unterminatedTail
  dsimp only
  generalize dropBytes (a.comments.explicitSince.getD 0) a.comments.marks = since at first
  generalize afterLastTerminator a.comments.marks = tail at second
  have within {s t : List Mark} (suffix : s <:+ t) (blank : Text.blank (t.map (·.char)) = true) :
      Text.blank (s.map (·.char)) = true := Text.blank_of_suffix (suffix.map _) blank
  split
  · rename_i shorter
    exact ⟨.inl, fun either => either.elim id
      (within (List.suffix_of_suffix_length_le first second shorter.le))⟩
  · rename_i longer
    exact ⟨.inr, fun either => either.elim
      (within (List.suffix_of_suffix_length_le second first (by omega))) id⟩

theorem blank_dropBytes_append {n : Nat} {marks : List Mark}
    (blank : Text.blank ((dropBytes n marks).map (·.char)) = true) {extra : List Mark}
    (blankExtra : Text.blank (extra.map (·.char)) = true) :
    Text.blank ((dropBytes n (marks ++ extra)).map (·.char)) = true := by
  fun_induction dropBytes n marks with
  | case1 marks =>
    rw [dropBytes, List.map_append, Text.blank_append, blank]
    exact blankExtra
  | case2 n => exact Text.blank_of_suffix ((dropBytes_suffix (n + 1) extra).map _) blankExtra
  | case3 n mark marks ih => exact ih blank

/-- **What lacks a terminator is blank** with blanks behind it if it is blank without. -/
theorem blank_unterminatedTail_append {x y : Analysis} {joined free : List Mark}
    (h : TrailedBy x.comments y.comments joined free)
    (blank : Text.blank (unterminatedTail x) = true) : Text.blank (unterminatedTail y) = true := by
  have blankExtra := h.blank
  rw [List.map_append, Text.blank_append, Bool.and_eq_true] at blankExtra
  rw [blank_unterminatedTail_iff] at blank ⊢
  rw [h.marks]
  rcases blank with directive | terminator
  · left
    rcases h.since with same | ⟨-, moved⟩
    · rw [same]
      exact blank_dropBytes_append directive h.blank
    · -- the directive now ends where the blanks end that have joined it
      have gone := dropBytes_append 0 (x.comments.marks ++ joined) free
      rw [Nat.zero_add, List.append_assoc] at gone
      rw [moved, Option.getD_some, gone, dropBytes]
      exact blankExtra.2
  · right
    rcases afterLastTerminator_append x.comments.marks (joined ++ free) with inBlanks | ⟨-, grown⟩
    · rw [inBlanks]
      exact Text.blank_of_suffix ((afterLastTerminator_suffix _).map _) h.blank
    · rw [grown, List.map_append, Text.blank_append, terminator]
      exact h.blank

/-! ## Buffers -/

theorem clean_of_complete {x : Analysis} (complete : x.incomplete? = none) :
    x.blocks.openBlocks = 0 ∧ x.comments.endState = .clean := by
  unfold incomplete? at complete
  split at complete
  · exact absurd complete (by simp)
  · rename_i closed
    refine ⟨Nat.eq_zero_of_not_pos closed, ?_⟩
    split at complete
    · exact absurd complete (by simp)
    · exact absurd complete (by simp)
    · assumption

/-- **Both passes over a buffer with blanks behind it.** -/
theorem ofCode_append_blank {w : Text} (blank : Text.blank w = true) {code : Text}
    {mode : DelimiterMode} (complete : (ofCode code mode).incomplete? = none) :
    let alone := ofCode code mode
    let trailed := ofCode (code ++ w) mode
    trailed.incomplete? = none ∧ trailed.finalMode = alone.finalMode ∧
      trailed.blocks.hasBlock = alone.blocks.hasBlock ∧
      Text.trimmedLines trailed.cleanText = Text.trimmedLines alone.cleanText := by
  obtain ⟨closed, clean⟩ := clean_of_complete complete
  obtain ⟨v, blankV, normalized⟩ := normalizeNewlines_append_blank blank code
  obtain ⟨joined, free, comments⟩ := scanComments_append_blank blankV (normalizeNewlines code) mode clean
  rw [← normalized] at comments
  obtain ⟨u, blankU, statements⟩ := comments.statementText
  have cleanText : (ofCode (code ++ w) mode).cleanText = (ofCode code mode).cleanText ++ u := statements
  obtain ⟨closed', blocks⟩ := scanBlocks_append_blank blankU (ofCode code mode).cleanText closed
  rw [← cleanText] at closed' blocks
  refine ⟨?_, comments.finalMode, blocks, ?_⟩
  · refine incomplete?_of_clean closed' comments.clean fun explicit => ?_
    have explicit' : (ofCode code mode).finalMode.isExplicit = true := by
      rw [← explicit]
      exact congrArg DelimiterMode.isExplicit comments.finalMode.symm
    exact blank_unterminatedTail_append comments (blank_unterminatedTail complete explicit')
  · rw [cleanText, Text.trimmedLines_append_blank blankU]

end Analysis

/-! ## Chunks -/

theorem submission_chunkOf (settings : AssemblySettings) (scan : BlockScan) :
    (chunkOf settings scan).submission = if (chunkOf settings scan).body = [] then [] else
      (if (chunkOf settings scan).indirect then includeLine settings.cache
        else Text.unlines (chunkOf settings scan).body) ++ '\n' :: (chunkOf settings scan).sentinel := by
  rcases chunkOf_cases settings scan with ⟨empty, -, sent, -⟩ | ⟨filled, direct, sent, -⟩ |
    ⟨filled, included, sent, -⟩
  · rw [sent, if_pos empty]
  · rw [sent, if_neg filled, direct]
    rfl
  · rw [sent, if_neg filled, included]
    rfl

theorem direct_of_empty {settings : AssemblySettings} {scan : BlockScan}
    (empty : (chunkOf settings scan).body = []) : (chunkOf settings scan).indirect = false := by
  rcases chunkOf_cases settings scan with ⟨-, direct, -⟩ | ⟨filled, -⟩ | ⟨filled, -⟩
  · exact direct
  · exact absurd empty filled
  · exact absurd empty filled

/-- A chunk comes from the lines of the text and from whether there is a block at all, except for
what is expected of the echoes. -/
theorem chunkOf_congr (settings : AssemblySettings) {scan scan' : BlockScan}
    (lines : Text.trimmedLines scan'.text = Text.trimmedLines scan.text)
    (blocks : scan'.hasBlock = scan.hasBlock) :
    let chunk := chunkOf settings scan
    let chunk' := chunkOf settings scan'
    chunk'.body = chunk.body ∧ chunk'.fingerprint = chunk.fingerprint ∧
      chunk'.submission = chunk.submission ∧ chunk'.plotsInjected = chunk.plotsInjected := by
  have body : (chunkOf settings scan').body = (chunkOf settings scan).body := by
    rw [body_of_text, body_of_text, lines]
  have fingerprint : (chunkOf settings scan').fingerprint = (chunkOf settings scan).fingerprint := by
    rw [fingerprint_chunkOf, fingerprint_chunkOf, body]
  have plots : (chunkOf settings scan').plotsInjected = (chunkOf settings scan).plotsInjected := by
    rw [plotsInjected_of_text, plotsInjected_of_text, lines]
  have heads (scan : BlockScan) : ((BodyLine.ofScan scan).any fun line => (statementHead line.text).prefixed)
      = (Text.trimmedLines scan.text).any fun line => (statementHead line).prefixed := by
    rw [← BodyLine.texts_ofScan, List.any_map]
    rfl
  have indirect : (chunkOf settings scan').indirect = (chunkOf settings scan).indirect := by
    by_cases empty : (chunkOf settings scan).body = []
    · rw [direct_of_empty empty, direct_of_empty (body.trans empty)]
    · have filled' : (chunkOf settings scan').body ≠ [] := by rwa [body]
      rw [indirect_chunkOf empty, indirect_chunkOf filled', needsScript, needsScript, heads, heads,
        lines, blocks, body]
  refine ⟨body, fingerprint, ?_, plots⟩
  rw [submission_chunkOf, submission_chunkOf, Chunk.sentinel, Chunk.sentinel, body, fingerprint,
    indirect]

/-- **Trailing blanks are irrelevant.** Code that is no shortcut and can be run can be run with any
blanks behind it, in the same mode and leaving the same mode, and what is sent for it is the same. -/
theorem checkComplete_append_blank {w : Text} (blank : Text.blank w = true) {code : Text}
    {context : SessionContext} (noMeta : MetaCommand.ofCode? code = none)
    (noHelp : helpCommand? code = none)
    (complete : (checkComplete code context.mode).incomplete = none) :
    checkComplete (code ++ w) context.mode = checkComplete code context.mode ∧
    ∀ settings,
      let alone := assemble (Analysis.ofCode code context.mode) settings context
      let trailed := assemble (Analysis.ofCode (code ++ w) context.mode) settings context
      trailed.1.body = alone.1.body ∧ trailed.1.fingerprint = alone.1.fingerprint ∧
        trailed.1.submission = alone.1.submission ∧ trailed.2 = alone.2 := by
  have trimmed := Text.trim_append_blank blank code
  have noMeta' : MetaCommand.ofCode? (code ++ w) = none := by
    rw [← noMeta, MetaCommand.ofCode?, MetaCommand.ofCode?, trimmed]
  have noHelp' : helpCommand? (code ++ w) = none := by
    rw [← noHelp, helpCommand?, helpCommand?, trimmed]
  have verdict := checkComplete_of_noShortcut noMeta noHelp context.mode
  have complete₀ : (Analysis.ofCode code context.mode).incomplete? = none := by
    rw [verdict] at complete
    exact complete
  obtain ⟨complete', finalMode, blocks, lines⟩ := Analysis.ofCode_append_blank blank complete₀
  constructor
  · rw [verdict, checkComplete_of_noShortcut noMeta' noHelp', complete', finalMode, complete₀]
  · intro settings
    have lines' : Text.trimmedLines (Analysis.ofCode (code ++ w) context.mode).blocks.text
        = Text.trimmedLines (Analysis.ofCode code context.mode).blocks.text := by
      rw [show (Analysis.ofCode (code ++ w) context.mode).blocks.text = _ from text_scanBlocks _,
        show (Analysis.ofCode code context.mode).blocks.text = _ from text_scanBlocks _]
      exact lines
    obtain ⟨body, fingerprint, submission, plots⟩ := chunkOf_congr settings lines' blocks
    refine ⟨body, fingerprint, submission, ?_⟩
    unfold assemble
    dsimp only
    rw [finalMode, plots]

/-- Two of the blanks join the directive, and the line ends among the others are as good as any. -/
theorem checkComplete_append_blank_directive :
    let code := "program p\rend\rscatter y x\r#delimit ;".toList
    let w := " \t\r\n\u2028".toList
    let context : SessionContext := ⟨.newline, 2⟩
    checkComplete (code ++ w) .newline = ⟨none, .semicolon⟩ ∧
      ∀ settings, (assemble (Analysis.ofCode (code ++ w) .newline) settings context).1.submission
        = (assemble (Analysis.ofCode code .newline) settings context).1.submission := by
  have alone : checkComplete "program p\rend\rscatter y x\r#delimit ;".toList .newline
      = ⟨none, .semicolon⟩ := by decide +kernel
  obtain ⟨verdict, sent⟩ := @checkComplete_append_blank " \t\r\n\u2028".toList (by decide)
    "program p\rend\rscatter y x\r#delimit ;".toList ⟨.newline, 2⟩ (by decide) (by decide)
    (by rw [alone])
  exact ⟨verdict.trans alone, fun settings => (sent settings).2.2.1⟩

end DoRunner
