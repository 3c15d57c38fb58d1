import DoRunner.Source.Blocks
import DoRunner.Source.Comments

/-!
# Both passes over one buffer

A buffer is read in three stages: its line ends are made line feeds, the comment pass separates
comments from statements, and the block pass finds the blocks in the statements. `Analysis` keeps
what each stage produced, since later decisions need all of it: whether the buffer can be run
(`Analysis.incomplete?`) and what would be sent (`DoRunner.Chunk`).
-/

namespace DoRunner

/-- Makes every line end a line feed: a carriage return with a line feed, or one alone. -/
def normalizeNewlines : Text → Text
  | '\r' :: '\n' :: t => '\n' :: normalizeNewlines t
  | '\r' :: t => '\n' :: normalizeNewlines t
  | c :: t => c :: normalizeNewlines t
  | [] => []

/-- A source buffer and what both passes found in it. -/
structure Analysis where
  /-- The buffer with its line ends made line feeds. -/
  normalized : Text
  /-- The delimiter mode that the buffer starts in. -/
  initialMode : DelimiterMode
  /-- What the comment pass found in it. -/
  comments : CommentScan
  /-- The statements, without comments and with one to a line. -/
  cleanText : Text
  /-- What the block pass found in the statements. -/
  blocks : BlockScan
deriving DecidableEq, Repr

namespace Analysis

/-- Both passes over `code`, which starts in `mode`. -/
def ofCode (code : Text) (mode : DelimiterMode) : Analysis :=
  let normalized := normalizeNewlines code
  let comments := scanComments normalized mode
  let cleanText := comments.statementText
  { normalized, initialMode := mode, comments, cleanText, blocks := scanBlocks cleanText }

/-- The delimiter mode after the buffer. -/
def finalMode (a : Analysis) : DelimiterMode := a.comments.finalMode

end Analysis

/-! ## Completeness -/

/-- Why a buffer cannot be run yet. -/
inductive IncompleteReason where
  /-- A block is open. -/
  | unclosedBlock
  /-- A block comment is open. -/
  | unterminatedBlockComment
  /-- The last line is continued on a line that is not there. -/
  | pendingContinuation
  /-- A statement lacks the terminator that would end it. -/
  | missingTerminator
deriving DecidableEq, Repr

namespace IncompleteReason

/-- The name under which the reason is reported. -/
def name : IncompleteReason → String
  | unclosedBlock => "UnclosedBlock"
  | unterminatedBlockComment => "UnterminatedBlockComment"
  | pendingContinuation => "PendingContinuation"
  | missingTerminator => "MissingTerminator"

end IncompleteReason

namespace Analysis

/-- What follows the last terminator in a marked text. -/
def afterLastTerminator (marks : List Mark) : List Mark :=
  (marks.reverse.takeWhile fun mark => mark.kind != .semicolonDelimiter).reverse

/-- The marks that are left after `bytes` bytes of text. -/
def dropBytes : Nat → List Mark → List Mark
  | 0, marks => marks
  | _ + 1, [] => []
  | bytes + 1, mark :: marks => dropBytes (bytes + 1 - mark.char.utf8Size) marks

/-- What follows the last terminator, or the directive that entered the explicit mode if that
stands later. -/
def unterminatedTail (a : Analysis) : Text :=
  let tail := afterLastTerminator a.comments.marks
  let sinceDirective := dropBytes (a.comments.explicitSince.getD 0) a.comments.marks
  (if sinceDirective.length < tail.length then sinceDirective else tail).map (·.char)

/-- Why the buffer cannot be run yet, if it cannot. Open blocks are reported before open comments,
and those before a missing terminator. -/
def incomplete? (a : Analysis) : Option IncompleteReason :=
  if 0 < a.blocks.openBlocks then some .unclosedBlock
  else match a.comments.endState with
    | .unterminatedBlockComment _ => some .unterminatedBlockComment
    | .pendingContinuation => some .pendingContinuation
    | .clean =>
      if a.finalMode.isExplicit ∧ Text.blank (unterminatedTail a) = false then
        some .missingTerminator
      else none

end Analysis

end DoRunner
