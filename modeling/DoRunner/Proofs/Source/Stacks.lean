import DoRunner.Proofs.Source.BlockTokens
import DoRunner.Proofs.Source.MataLines
import DoRunner.Proofs.Source.Ways

/-!
# The stacks that the passes meet

A stack of modes can be anything, but few stacks are met on the way through a text. In the comment
pass one comment or string is open, or a block comment within a star comment
(`Comments.CommentStack`); in the block pass one block may be open, and one string within it or
without it (`Blocks.BlockStack`). Nothing has depth zero on them, so that what is entered is left
again by one pop (`ModeStack.pop_push`).

How the comment pass reports its end is read off the stack, but not off the stack alone: a
continuation takes its line feed with it and is off the stack then, and is pending all the same. That
is the one case in which the last mark counts (`Comments.Reached.report_eq_pendingContinuation_iff`).
-/

namespace DoRunner

/-! ## Entering and leaving -/

/-- How many levels deep a mode is; one where it has no levels. -/
def Mode.depth : Mode → Nat
  | blockComment depth | braceBlock depth | compoundString depth => depth
  | _ => 1

namespace ModeStack

theorem pop_cons {mode : Mode} (entered : mode ≠ .root) (level : mode.depth = 1)
    (outer : List Mode) : pop ⟨mode :: outer⟩ = ⟨outer⟩ := by
  cases mode with
  | root => exact absurd rfl entered
  | blockComment depth => obtain rfl : depth = 1 := level; rfl
  | braceBlock depth => obtain rfl : depth = 1 := level; rfl
  | compoundString depth => obtain rfl : depth = 1 := level; rfl
  | _ => rfl

/-- **What is entered is left again,** whether it makes an entry of its own or the one on top
deeper. -/
theorem pop_push {modes : ModeStack} (positive : 0 < modes.top.depth) {mode : Mode}
    (entered : mode ≠ .root) (level : mode.depth = 1) : (modes.push mode).pop = modes := by
  obtain ⟨below⟩ := modes
  unfold push
  dsimp only
  split
  case h_1 depth outer _ | h_2 depth outer _ | h_3 depth outer _ =>
    -- the entry on top is one level deeper now
    have deeper : 1 < depth + 1 := Nat.succ_lt_succ positive
    simp only [pop, shallower, if_pos deeper, Nat.add_sub_cancel]
  case h_4 => exact pop_cons entered level below

end ModeStack

namespace Comments

variable {initial : DelimiterMode} {text : Text} {s : State} {left : Text}

/-! ## The comment pass -/

theorem CommentStack.positive {entered : List Mode} (stack : CommentStack entered) :
    0 < (ModeStack.top ⟨entered⟩).depth := by
  cases stack <;> exact Nat.succ_pos _

/-- Within a statement, only a continuation that opens is marked as one. -/
theorem StatementMove.continuation {rest : Text} {move : Move} (reads : StatementMove s rest move)
    (root : s.modes = .atRoot) (kind : move.kind = .commentContinuation) :
    move.modes.top = .continuation := by
  cases reads with
  | comment opens =>
    obtain ⟨t, -, rfl⟩ | ⟨t, -, rfl⟩ | ⟨t, -, rfl⟩ := slashComment?_cases opens
    · rw [root]
      rfl
    · exact TokenKind.noConfusion kind
    · exact TokenKind.noConfusion kind
  | string =>
    revert kind
    cases s.delimiter <;> exact fun kind => TokenKind.noConfusion kind
  | terminator => exact TokenKind.noConfusion kind
  | text =>
    revert kind
    cases s.delimiter <;> exact fun kind => TokenKind.noConfusion kind

/-- So it is outside everything. -/
theorem top_rootStep (root : s.modes = .atRoot) (rest : Text)
    (kind : (rootStep s rest).1.kind = .commentContinuation) :
    (rootStep s rest).1.modes.top = .continuation := by
  have does := rootStep_inv s rest
  generalize (rootStep s rest).1 = move, (rootStep s rest).2.1 = delimiter at does kind
  cases does with
  | directive => exact TokenKind.noConfusion kind
  | star => exact TokenKind.noConfusion kind
  | statement _ reads => exact reads.continuation root kind

/-- Inside anything but a continuation, nothing is marked as one. -/
theorem kind_act_ne (stack : CommentStack s.modes.entered) (inside : s.modes ≠ .atRoot)
    (other : s.modes.top ≠ .continuation) (rest : Text) :
    (act s rest).1.kind ≠ .commentContinuation := by
  have line : (lineCommentMove s rest).kind ≠ .commentContinuation := by
    rw [lineCommentMove_eq]
    split
    · cases s.delimiter <;> exact fun kind => TokenKind.noConfusion kind
    · exact fun kind => TokenKind.noConfusion kind
  have star : (starCommentMove s rest).kind ≠ .commentContinuation := by
    rw [starCommentMove_eq]
    split
    · exact fun kind => TokenKind.noConfusion kind
    · split
      · split <;> exact fun kind => TokenKind.noConfusion kind
      · split <;> exact fun kind => TokenKind.noConfusion kind
  have block : (blockMove s rest).kind ≠ .commentContinuation := by
    unfold blockMove
    split <;> exact fun kind => TokenKind.noConfusion kind
  have string : (stringMove s rest).kind ≠ .commentContinuation := by
    unfold stringMove
    cases s.delimiter <;> exact fun kind => TokenKind.noConfusion kind
  obtain ⟨⟨entered⟩, delimiter, since, inMata, past⟩ := s
  cases stack with
  | root => exact absurd rfl inside
  | continuation => exact absurd rfl other
  | lineComment => exact line
  | starComment => exact star
  | blockComment outer => exact block
  | starBlock outer => exact block
  | plainString => exact string
  | compoundString outer => exact string

/-- **What is marked as a continuation** leaves one open, or is the line feed that it takes with
it. -/
theorem act_continuation (stack : CommentStack s.modes.entered) (rest : Text)
    (kind : (act s rest).1.kind = .commentContinuation) :
    (act s rest).1.modes.top = .continuation ∨
      (act s rest).1.modes = .atRoot ∧ (act s rest).1.more = 0 ∧ rest.head? = some '\n' := by
  by_cases root : s.modes = .atRoot
  · rw [act_of_atRoot root] at kind ⊢
    exact .inl (top_rootStep root rest kind)
  by_cases inside : s.modes.top = .continuation
  · have alone : s.modes = ⟨[.continuation]⟩ := by
      obtain ⟨⟨entered⟩, delimiter, since, inMata, past⟩ := s
      cases stack <;> first | rfl | exact Mode.noConfusion inside
    have acts : (act s rest).1 = continuationMove s rest := by
      rw [act, inside]
    rw [acts, continuationMove_eq] at kind ⊢
    split
    · rename_i lf
      exact .inr ⟨by rw [alone]; rfl, rfl, lf⟩
    · rename_i noLf
      rw [if_neg noLf] at kind
      split
      · rename_i slashes
        rw [if_pos slashes] at kind
        exact TokenKind.noConfusion kind
      · exact .inl inside
  · exact absurd kind (kind_act_ne stack root inside rest)

/-- What the pass would report if the text ended here. -/
def State.report (s : State) : CommentEnd := endOf (s.past.head?.map (·.kind)) s.modes.entered

/-- Whether the last that was read is a continuation, with the line feed that it takes with it. -/
def State.BehindContinuation (s : State) : Prop :=
  s.modes = .atRoot ∧ s.past.head? = some ⟨.commentContinuation, '\n'⟩

/-- **The last mark is one of a continuation** only in an open one or right behind one. -/
theorem Reached.continuation_cases (h : Reached initial text s left) {mark : Mark}
    (last : mark ∈ s.past.head?) (kind : mark.kind = .commentContinuation) :
    s.modes.top = .continuation ∨ s.BehindContinuation := by
  cases h with
  | start => exact absurd last (by simp [State.initial])
  | @step s c rest before =>
    have nonempty : marksRead s c rest ≠ [] := by simp [marksRead]
    have made : mark ∈ marksRead s c rest := by
      rw [past_step, List.head?_append_of_ne_nil _ nonempty] at last
      exact List.mem_of_mem_head? last
    have stack := settle_commentStack before.commentStack c
    obtain ⟨read, -⟩ := of_mem_marksRead made
    rcases act_continuation stack (c :: rest) (read.trans kind) with inside | ⟨root, one, lf⟩
    · exact .inl inside
    · obtain ⟨-, spelt⟩ := marksRead_single made one
      have lineFeed : mark = ⟨.commentContinuation, '\n'⟩ := by
        obtain ⟨markKind, char⟩ := mark
        obtain rfl : markKind = _ := kind
        rw [show char = '\n' from spelt.trans (Option.some.inj lf)]
      exact .inr ⟨root, by rw [← lineFeed]; exact last⟩

theorem report_eq_unterminatedBlockComment_iff (stack : CommentStack s.modes.entered) {depth : Nat} :
    s.report = .unterminatedBlockComment depth ↔ s.modes.top = .blockComment depth := by
  obtain ⟨⟨entered⟩, delimiter, since, inMata, past⟩ := s
  unfold State.report
  cases stack with
  | blockComment outer => simp [endOf, ModeStack.top]
  | starBlock outer => simp [endOf, ModeStack.top]
  | continuation => simp [endOf, ModeStack.top]
  | _ =>
    refine iff_of_false ?_ Mode.noConfusion
    dsimp only [endOf]
    split <;> exact CommentEnd.noConfusion

/-- **What is pending:** a continuation that is open, or one whose line feed was the last that was
read. -/
theorem Reached.report_eq_pendingContinuation_iff (h : Reached initial text s left) :
    s.report = .pendingContinuation ↔ s.modes.top = .continuation ∨ s.BehindContinuation := by
  have stack := h.commentStack
  constructor
  · intro pending
    by_cases last : s.past.head?.map (·.kind) = some .commentContinuation
    · obtain ⟨mark, first, kind⟩ := Option.map_eq_some_iff.mp last
      exact h.continuation_cases first kind
    · left
      obtain ⟨⟨entered⟩, delimiter, since, inMata, past⟩ := s
      unfold State.report at pending
      cases stack with
      | continuation => rfl
      | _ => simp [endOf, last] at pending
  · rintro (top | ⟨root, last⟩)
    · obtain ⟨⟨entered⟩, delimiter, since, inMata, past⟩ := s
      cases stack <;> first | rfl | exact Mode.noConfusion top
    · rw [State.report, root, last]
      rfl

/-! ## What ends statements -/

/-- **What ends statements changes only outside everything.** If the pass was inside anything before
the step, it was a star comment that ended before its terminator, so that the terminator is read
outside. -/
theorem delimiter_changes (stack : CommentStack s.modes.entered) {c : Char} {rest : Text}
    (changes : (step s c rest).1.delimiter ≠ s.delimiter) :
    (settle s c).modes = .atRoot ∧
      (s.modes = .atRoot ∨ s.modes = ⟨[.starComment]⟩ ∧ s.delimiter = .explicit c) := by
  have root : (settle s c).modes = .atRoot := by
    by_contra inside
    have same := (act_inside (settle_commentStack stack c) inside (c :: rest)).1
    rw [settle_delimiter] at same
    exact changes same
  -- a line feed begins no directive
  have noLf : c ≠ '\n' := by
    rintro rfl
    exact changes (step_delimiter_lf s rest)
  refine ⟨root, ?_⟩
  obtain ⟨⟨entered⟩, delimiter, since, inMata, past⟩ := s
  cases stack with
  | root => exact .inl rfl
  | plainString =>
    have left : c = '\n' := by
      by_contra other
      simp [settle, ModeStack.top, ModeStack.atRoot, other] at root
    exact absurd left noLf
  | starComment =>
    have left : c = delimiter.terminator := by
      by_contra other
      simp [settle, ModeStack.top, ModeStack.atRoot, other] at root
    cases delimiter with
    | newline => exact absurd left noLf
    | explicit terminator => exact .inr ⟨rfl, congrArg _ (Eq.symm left)⟩
  | _ => exact absurd root (by simp [settle, ModeStack.top, ModeStack.atRoot])

/-- A star comment may end before a terminator that begins a directive. -/
example :
    let s := run (.initial (.explicit '#')) "* a\n".toList
    s.modes = ⟨[.starComment]⟩ ∧ (step s '#' "delimit cr".toList).1.delimiter = .newline := by
  decide +kernel

/-- What holds of every state that the comment pass comes by. -/
structure Tidy (s : State) : Prop where
  stack : CommentStack s.modes.entered
  /-- What the pass is inside of when it has left what ends before the next character. -/
  settled : ∀ c, CommentStack (settle s c).modes.entered
  /-- What ends statements changes only in a step that is taken outside everything. -/
  changes : ∀ c rest, (step s c rest).1.delimiter ≠ s.delimiter → (settle s c).modes = .atRoot ∧
    (s.modes = .atRoot ∨ s.modes = ⟨[.starComment]⟩ ∧ s.delimiter = .explicit c)
  /-- A block comment that is on top is what would be reported at the end, as deep as it is. -/
  block : ∀ depth, s.report = .unterminatedBlockComment depth ↔ s.modes.top = .blockComment depth
  /-- A continuation that is on top is what would be reported, and one that has just been left. -/
  pending : s.report = .pendingContinuation ↔ s.modes.top = .continuation ∨ s.BehindContinuation

theorem Reached.tidy (h : Reached initial text s left) : Tidy s where
  stack := h.commentStack
  settled := settle_commentStack h.commentStack
  changes := fun _ _ => delimiter_changes h.commentStack
  block := fun _ => report_eq_unterminatedBlockComment_iff h.commentStack
  pending := h.report_eq_pendingContinuation_iff

end Comments

/-! ## The block pass -/

namespace Blocks

theorem BlockStack.positive {entered : List Mode} (stack : BlockStack entered) :
    0 < (ModeStack.top ⟨entered⟩).depth := by
  cases stack with
  | outside around => cases around <;> exact Nat.succ_pos _
  | plainString around => exact Nat.one_pos
  | compoundString outer around => exact Nat.succ_pos outer

theorem blockStack_of_goes {text left : Text} {through : List ModeStack} {s : State}
    (h : Goes pass .initial text through s left) : BlockStack s.modes.entered := by
  have sound : Sound s := h.invariant (fun _ c rest before => step_sound before c rest) sound_initial
  exact sound.stack

end Blocks

/-! ## Both passes -/

/-- **The stacks that are met.** On its way through a text, the comment pass is outside everything, in
one comment or string, or in a block comment within a star comment, and the block pass is outside
everything, in one block, in one string, or in a string within a block. What ends statements changes
only outside everything. On all these stacks a mode that is entered is left again by one pop. And how
the comment pass ends is what its stack has on top, but that a continuation is pending as well when
its line feed is the last that was read. -/
theorem reachable_stacks :
    (∀ {initial text s left}, Comments.Reached initial text s left → Comments.Tidy s) ∧
    (∀ text initial, ∃ s, Comments.Reached initial text s [] ∧
      (scanComments text initial).endState = s.report) ∧
    (∀ {text through s left}, Goes Blocks.pass .initial text through s left →
      Blocks.BlockStack s.modes.entered ∧ ∀ c, Blocks.BlockStack (Blocks.settle s c).modes.entered) ∧
    ∀ {modes : ModeStack},
      Comments.CommentStack modes.entered ∨ Blocks.BlockStack modes.entered →
      ∀ {mode : Mode}, mode ≠ .root → mode.depth = 1 → (modes.push mode).pop = modes := by
  refine ⟨Comments.Reached.tidy, fun text initial => ?_, fun h => ?_, fun {modes} stack => ?_⟩
  · exact ⟨Comments.run (.initial initial) text, Comments.Reached.start.run, rfl⟩
  · have stack := Blocks.blockStack_of_goes h
    exact ⟨stack, fun c => (Blocks.settle_stack stack c).1⟩
  · have positive : 0 < modes.top.depth := by
      rcases stack with stack | stack
      · exact stack.positive
      · exact stack.positive
    exact fun {mode} entered level => ModeStack.pop_push positive entered level

/-- A block comment within a star comment, a string within braces, and a directive. -/
theorem reachable_stacks_nested :
    let text := "* a /* b".toList
    let commented := Comments.run (.initial .newline) text
    let blocked := Blocks.run .initial "\x7b \"a".toList
    let directed := Comments.step (.initial .newline) '#' "delimit ;".toList
    Comments.Reached .newline text commented [] ∧
      commented.modes = ⟨[.blockComment 1, .starComment]⟩ ∧
      (scanComments text .newline).endState = .unterminatedBlockComment 1 ∧
      (commented.modes.push .lineComment).pop = commented.modes ∧
      blocked.modes = ⟨[.plainString, .braceBlock 1]⟩ ∧ Blocks.BlockStack blocked.modes.entered ∧
      (blocked.modes.push (.compoundString 1)).pop = blocked.modes ∧
      directed.1.delimiter = .semicolon ∧
      (Comments.settle (.initial .newline) '#').modes = .atRoot := by
  intro text commented blocked directed
  obtain ⟨comments, -, blocks, undone⟩ := reachable_stacks
  have reached : Comments.Reached .newline text commented [] := Comments.Reached.start.run
  have tidy : Comments.Tidy commented := comments reached
  have inside : commented.modes = ⟨[.blockComment 1, .starComment]⟩ := by decide +kernel
  obtain ⟨through, goes⟩ := @Goes.exists_whole _ Blocks.pass .initial "\x7b \"a".toList
  have stack : Blocks.BlockStack blocked.modes.entered := (blocks goes).1
  have semicolon : directed.1.delimiter = .semicolon := by decide +kernel
  have outset : Comments.Reached .newline "#delimit ;".toList (.initial .newline) _ := .start
  refine ⟨reached, inside, ?_, ?_, by decide +kernel, stack, ?_, semicolon, ?_⟩
  · exact (tidy.block 1).mpr (by rw [inside]; rfl)
  · exact undone (.inl tidy.stack) (by decide) rfl
  · exact undone (.inr stack) (by decide) rfl
  · refine ((comments outset).changes '#' "delimit ;".toList ?_).1
    rw [show Comments.step (.initial .newline) '#' "delimit ;".toList = directed from rfl, semicolon]
    decide

/-- Behind a continuation and its line feed nothing is on the stack, and the continuation is pending
all the same. -/
theorem endState_behindContinuation :
    let text := "x ///\n".toList
    let final := Comments.run (.initial .newline) text
    Comments.Reached .newline text final [] ∧ final.modes = .atRoot ∧
      (scanComments text .newline).endState = .pendingContinuation ∧
      ¬ ((scanComments text .newline).endState = .pendingContinuation ↔
        final.modes.top = .continuation) := by
  intro text final
  have root : final.modes = .atRoot := by decide +kernel
  have pending : (scanComments text .newline).endState = .pendingContinuation := by decide +kernel
  refine ⟨Comments.Reached.start.run, root, pending, fun same => ?_⟩
  have top := same.mp pending
  rw [root] at top
  exact Mode.noConfusion top

end DoRunner
