import DoRunner.Proofs.Chunk.Terminated
import DoRunner.Proofs.Source.BareLine
import DoRunner.Proofs.Source.CommentTokens

/-!
# What is complete under an explicit terminator

Under an explicit terminator, a line that opens nothing is complete if it ends with that character
(`complete_explicit`). Where the character does not occur, nothing is complete
(`incomplete_of_notMem`).
-/

namespace DoRunner

/-- Statement text on one line is a statement as it stands. -/
theorem Comments.statements_bare (mode : DelimiterMode) {line : Text} (oneLine : '\n' ∉ line) :
    statements (Past.extend [] (bareKind mode) line) = line := by
  have each : ∀ c ∈ line, CommentScan.statementChars ⟨bareKind mode, c⟩ = [c] := by
    intro c m
    have noLf : c ≠ '\n' := fun same => oneLine (same ▸ m)
    cases mode with
    | newline => rfl
    | explicit terminator =>
      show [if c = '\n' then ' ' else c] = [c]
      rw [if_neg noLf]
  rw [statements_extend]
  show line.flatMap _ = line
  rw [List.flatMap_congr each]
  exact List.flatMap_singleton' line

namespace Blocks

/-- A bare line leaves the pass where it began, with its line feed or without it. -/
theorem modes_bare {line : Text} (bare : Text.Bare line)
    (noBlock : Line.opensEndBlock line = false) {ending : Text}
    (ends : ending = [] ∨ ending = ['\n']) : (run .initial (line ++ ending)).modes = .atRoot := by
  have noQuote : '"' ∉ line ++ ending := by
    intro m
    rcases List.mem_append.mp m with m | m
    · exact bare.notMem_quote m
    · rcases ends with rfl | rfl
      · exact absurd m List.not_mem_nil
      · exact absurd m (by decide)
  have first : Text.firstLine (line ++ ending) = line := by
    rcases ends with rfl | rfl
    · rw [List.append_nil]
      exact bare.firstLine
    · exact Text.firstLine_append_lf (fun m => (bare _ m).1 rfl) []
  rw [run_bare rfl bare noQuote fun _ => by rw [first, noBlock]]
  rcases ends with rfl | rfl
  · rw [run]
    rfl
  · exact modes_run_lf rfl

/-- So it opens no block. -/
theorem openBlocks_bare {line : Text} (bare : Text.Bare line)
    (noBlock : Line.opensEndBlock line = false) {ending : Text}
    (ends : ending = [] ∨ ending = ['\n']) : (scanBlocks (line ++ ending)).openBlocks = 0 := by
  show (run .initial (line ++ ending)).modes.openBlocks = 0
  rw [modes_bare bare noBlock ends]
  rfl

end Blocks

namespace Analysis

theorem incomplete?_of_clean {x : Analysis} (closed : x.blocks.openBlocks = 0)
    (clean : x.comments.endState = .clean)
    (ended : x.finalMode.isExplicit = true → Text.blank (unterminatedTail x) = true) :
    x.incomplete? = none := by
  unfold incomplete?
  rw [closed, if_neg (Nat.lt_irrefl 0), clean]
  dsimp only
  refine if_neg ?_
  rintro ⟨explicit, unended⟩
  rw [ended explicit] at unended
  exact absurd unended.symm Bool.false_ne_true

/-- **A buffer without the explicit terminator is never complete,** whatever else it holds, unless
it leaves the mode. -/
theorem incomplete_of_notMem {text : Text} (plain : '\r' ∉ text) {terminator : Char}
    (noDirective : ∀ line ∈ Text.lines text, Line.directive? line ≠ some .newline)
    (ink : Text.blank text = false) (missing : terminator ∉ text) :
    (ofCode text (.explicit terminator)).incomplete? ≠ none := by
  intro complete
  have comments := comments_ofCode plain (.explicit terminator)
  obtain ⟨delimiter, since⟩ := Comments.run_of_noDirective
    (s := .initial (.explicit terminator)) rfl noDirective
  have blank := blank_unterminatedTail complete (by
    rw [finalMode, comments]
    exact congrArg DelimiterMode.isExplicit delimiter)
  rw [unterminatedTail_of_never (by rw [comments]; exact since), comments] at blank
  -- nothing is marked as a terminator, so the whole text is left
  have all : afterLastTerminator (scanComments text (.explicit terminator)).marks
      = (scanComments text (.explicit terminator)).marks := by
    rw [afterLastTerminator, List.takeWhile_eq_self_iff.mpr, List.reverse_reverse]
    intro mark m
    have statement := Comments.isDelimiter_of_notMem missing noDirective
      (List.mem_reverse.mp (List.mem_reverse.mp m))
    refine bne_iff_ne.mpr fun same => ?_
    rw [same] at statement
    exact absurd statement (by decide)
  rw [all, map_char_marks_scanComments, ink] at blank
  exact absurd blank Bool.false_ne_true

/-- **A line that opens nothing is complete with its terminator at the end.** -/
theorem complete_explicit {front : Text} {terminator : Char} (plain : '\r' ∉ front ++ [terminator])
    (ordinary : Line.Ordinary (front ++ [terminator])) (noBlock : Line.opensEndBlock front = false)
    (bare : Text.Bare (front ++ [terminator])) (nonempty : front ≠ []) (first : terminator ∉ front) :
    (ofCode (front ++ [terminator]) (.explicit terminator)).incomplete? = none ∧
      (ofCode (front ++ [terminator]) (.explicit terminator)).finalMode = .explicit terminator := by
  have comments := comments_ofCode plain (.explicit terminator)
  have frontBare : Text.Bare front := fun c m => bare c (List.mem_append_left _ m)
  have oneLine : '\n' ∉ front := fun m => (frontBare _ m).1 rfl
  have final : Comments.run (.initial (.explicit terminator)) (front ++ [terminator]) =
      { Comments.State.initial (.explicit terminator) with
        past := ⟨.semicolonDelimiter, terminator⟩ :: Past.extend [] .namespaceBody front } := by
    rw [Comments.run_bare rfl rfl bare (fun _ => ordinary)]
    · exact Comments.run_terminator rfl rfl (Past.atLineStart_extend nonempty oneLine)
        fun c m => bare c (List.mem_append_right _ m)
    · intro c m same
      exact first (by rw [DelimiterMode.explicit.inj same]; exact m)
  have mode : (ofCode (front ++ [terminator]) (.explicit terminator)).finalMode
      = .explicit terminator := by
    rw [finalMode, comments, scanComments]
    dsimp only
    rw [final]
    rfl
  refine ⟨incomplete?_of_clean ?_ ?_ fun _ => ?_, mode⟩
  · have clean : (ofCode (front ++ [terminator]) (.explicit terminator)).cleanText
        = front ++ ['\n'] := by
      rw [cleanText_ofCode plain, final, Comments.statements_cons]
      exact congrArg (· ++ ['\n']) (Comments.statements_bare (.explicit terminator) oneLine)
    show (scanBlocks (ofCode (front ++ [terminator]) (.explicit terminator)).cleanText).openBlocks = 0
    rw [clean]
    exact Blocks.openBlocks_bare frontBare noBlock (.inr rfl)
  · rw [comments, scanComments]
    dsimp only
    rw [final]
    rfl
  · have since : (scanComments (front ++ [terminator]) (.explicit terminator)).explicitSince = none := by
      rw [scanComments, final]
      rfl
    rw [unterminatedTail_of_never (by rw [comments]; exact since), comments, afterLastTerminator,
      scanComments, final, List.reverse_reverse, List.takeWhile_cons_of_neg Bool.false_ne_true]
    rfl

end Analysis

end DoRunner
