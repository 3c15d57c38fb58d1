import DoRunner.Source.Line
import DoRunner.Source.Quote

/-!
# Comments and delimiter modes

The first pass over a source text tells statement text from comments and settles, as it goes, what
ends a statement: a directive line changes the delimiter mode for all that follows it.

The pass is a machine over the remaining text. One step looks at what is ahead, at the stack of
modes and at the marks behind, gives one kind to one or more characters, and goes on after them.
Since every step reads at least one character the pass ends, and since it marks what it reads
nothing is lost. Two constructs end *before* a character and not with it: a plain string at the end
of its line, and a star comment at the end of its statement. `settle` leaves them first, so that
the character is then read as what follows.

The rules differ between the two delimiter modes mainly in what may stand before a line comment.
While statements end with their lines, a blank is enough. Under an explicit terminator, the comment
must start its line after some indentation, or follow a terminator and a blank.
-/

namespace DoRunner

/-- How the comment pass ended. -/
inductive CommentEnd where
  /-- No comment is open. -/
  | clean
  /-- The text ended inside a block comment, `depth` levels deep. -/
  | unterminatedBlockComment (depth : Nat)
  /-- The text ended inside a continuation comment or right after one. -/
  | pendingContinuation
deriving DecidableEq, Repr

namespace Comments

/-- The state of the comment pass between two steps. -/
structure State where
  /-- What the scanner is inside of. -/
  modes : ModeStack
  /-- What ends a statement. -/
  delimiter : DelimiterMode
  /-- Where the directive ended that put the explicit terminator in force, if one did. -/
  explicitSince : Option Nat
  /-- Whether the lines belong to a mata region. -/
  inMata : Bool
  /-- The marks made so far. -/
  past : Past
deriving DecidableEq, Repr

/-- The pass before its first step. -/
def State.initial (delimiter : DelimiterMode) : State :=
  ⟨.atRoot, delimiter, none, false, []⟩

/-- What one step does: the kind of what it reads, how many characters it reads beyond one, and
what the scanner is inside of afterwards. -/
structure Move where
  /-- The kind of the characters read. -/
  kind : TokenKind
  /-- How many characters are read beyond the first. -/
  more : Nat
  /-- What the scanner is inside of afterwards. -/
  modes : ModeStack
deriving DecidableEq, Repr

/-! ## Openers -/

/-- The number of characters up to and with the star of a star comment that starts this line after
spaces and tabs. -/
def starOpener? (rest : Text) : Option Nat :=
  match rest.dropWhile fun c => c == ' ' || c == '\t' with
  | '*' :: _ => some (rest.takeWhile fun c => c == ' ' || c == '\t').length
  | _ => none

/-- A comment that opens here with slashes. `lineCommentAllowed` says whether a line comment may
follow what stands before. -/
def slashComment? (s : State) (lineCommentAllowed : Past → Bool) (rest : Text) : Option Move :=
  match rest with
  | '/' :: '/' :: '/' :: _ =>
    if s.past.afterBlank then some ⟨.commentContinuation, 2, s.modes.push .continuation⟩
    else if lineCommentAllowed s.past then some ⟨.commentLine, 1, s.modes.push .lineComment⟩
    else none
  | '/' :: '/' :: _ =>
    if lineCommentAllowed s.past then some ⟨.commentLine, 1, s.modes.push .lineComment⟩ else none
  | '/' :: '*' :: _ => some ⟨.commentBlock, 1, s.modes.push (.blockComment 1)⟩
  | _ => none

/-- Whether a line comment may open here under an explicit terminator. -/
def explicitLineCommentAllowed (terminator : Char) (past : Past) : Bool :=
  past.indented || past.spacedAfter terminator

/-! ## Steps outside comments -/

/-- Whether a line starts a mata region or ends one: the flag after its start has been seen. -/
def mataAfter (inMata : Bool) (line : Text) : Bool :=
  if inMata then !Line.closesBlock line else Line.opensMata line

/-- A move to the end of the line that does not change the modes. -/
def directiveMove (s : State) (rest : Text) : Move :=
  ⟨.commentLine, (Text.firstLine rest.tail).length, s.modes⟩

/-- A step of ordinary text where no opener of a whole line applies. -/
def plainMove (s : State) (rest : Text) : Move :=
  match slashComment? s Past.afterBlank rest with
  | some move => move
  | none =>
    match Quote.opens? s.past rest with
    | some (mode, more) => ⟨.stringLiteral, more, s.modes.push mode⟩
    | none => ⟨.plainText, 0, s.modes⟩

/-- The same under an explicit terminator. -/
def explicitMove (s : State) (terminator : Char) (rest : Text) : Move :=
  match slashComment? s (explicitLineCommentAllowed terminator) rest with
  | some move => move
  | none =>
    match Quote.opens? s.past rest with
    | some (mode, more) => ⟨.namespaceBody, more, s.modes.push mode⟩
    | none =>
      if rest.head? = some terminator then ⟨.semicolonDelimiter, 0, s.modes⟩
      else ⟨.namespaceBody, 0, s.modes⟩

/-- The move of a star comment that opens here. -/
def starMove (s : State) (more : Nat) : Move :=
  ⟨.commentLine, more, s.modes.push .starComment⟩

/-- One step of ordinary text: the move, and the delimiter mode and mata flag after it. -/
def rootStep (s : State) (rest : Text) : Move × DelimiterMode × Bool :=
  match s.delimiter with
  | .newline =>
    if s.past.atLineStart then
      let line := Text.firstLine rest
      let inMata := mataAfter s.inMata line
      if Line.directive? line = some .explicit then
        (directiveMove s rest, .semicolon, inMata)
      else
        match if inMata then none else starOpener? rest with
        | some more => (starMove s more, .newline, inMata)
        | none => (plainMove s rest, .newline, inMata)
    else (plainMove s rest, .newline, s.inMata)
  | .explicit terminator =>
    if s.past.atLineStart then
      if Line.directive? (Text.firstLine rest) = some .newline then
        (directiveMove s rest, .newline, s.inMata)
      else
        match starOpener? rest with
        | some more => (starMove s more, .explicit terminator, s.inMata)
        | none => (explicitMove s terminator rest, .explicit terminator, s.inMata)
    else (explicitMove s terminator rest, .explicit terminator, s.inMata)

/-! ## Steps inside comments -/

/-- Whether blanks and then a star that closes nothing follow a block comment. Such a star turns
what is left of its line into a comment. -/
def starFollows (rest : Text) : Bool :=
  rest.head?.any isBlank &&
    match Text.trimStart rest with
    | '*' :: '/' :: _ => false
    | '*' :: _ => true
    | _ => false

/-- One step inside a block comment. -/
def blockMove (s : State) (rest : Text) : Move :=
  match rest with
  | '/' :: '*' :: _ => ⟨.commentBlock, 1, s.modes.push (.blockComment 1)⟩
  | '*' :: '/' :: '*' :: _ => ⟨.commentBlock, 2, s.modes⟩
  | '*' :: '/' :: after =>
    ⟨.commentBlock, if starFollows after then 1 + (Text.firstLine after).length else 1,
      s.modes.pop⟩
  | _ => ⟨.commentBlock, 0, s.modes⟩

/-- One step inside a star comment. Three slashes hand its line over to the next one. -/
def starCommentMove (s : State) (rest : Text) : Move :=
  match rest with
  | '/' :: '/' :: '/' :: _ =>
    ⟨.commentLine, (Text.firstLine rest.tail).length + 1, s.modes.replace .continuation⟩
  | '/' :: '/' :: _ =>
    if !s.delimiter.isExplicit && s.past.afterBlank then
      ⟨.commentLine, 1, s.modes.replace .lineComment⟩
    else ⟨.commentLine, 0, s.modes⟩
  | '/' :: '*' :: _ => ⟨.commentBlock, 1, s.modes.push (.blockComment 1)⟩
  | _ => ⟨.commentLine, 0, s.modes⟩

/-- One step inside a line comment. The line feed that ends it is statement text. -/
def lineCommentMove (s : State) (rest : Text) : Move :=
  match rest with
  | '\n' :: _ =>
    ⟨if s.delimiter.isExplicit then .namespaceBody else .plainText, 0, s.modes.pop⟩
  | _ => ⟨.commentLine, 0, s.modes⟩

/-- One step inside a continuation comment, which takes its line feed with it. Two slashes turn
the rest of the line into a line comment and end the continuation. -/
def continuationMove (s : State) (rest : Text) : Move :=
  match rest with
  | '\n' :: _ => ⟨.commentContinuation, 0, s.modes.pop⟩
  | '/' :: '/' :: _ => ⟨.commentLine, (Text.firstLine rest.tail).length, s.modes.pop⟩
  | _ => ⟨.commentContinuation, 0, s.modes⟩

/-- One step inside a string. -/
def stringMove (s : State) (rest : Text) : Move :=
  let read := Quote.step s.modes rest
  ⟨if s.delimiter.isExplicit then .namespaceBody else .stringLiteral, read.2, read.1⟩

/-! ## The pass -/

/-- Leaves what ends before the next character: a plain string before a line feed, a star comment
before the end of its statement. -/
def settle (s : State) (next : Char) : State :=
  match s.modes.top with
  | .plainString => if next = '\n' then { s with modes := s.modes.pop } else s
  | .starComment => if next = s.delimiter.terminator then { s with modes := s.modes.pop } else s
  | _ => s

/-- The move at the text that is left, and the delimiter mode and mata flag after it. -/
def act (s : State) (rest : Text) : Move × DelimiterMode × Bool :=
  match s.modes.top with
  | .blockComment _ => (blockMove s rest, s.delimiter, s.inMata)
  | .starComment => (starCommentMove s rest, s.delimiter, s.inMata)
  | .lineComment => (lineCommentMove s rest, s.delimiter, s.inMata)
  | .continuation => (continuationMove s rest, s.delimiter, s.inMata)
  | .plainString | .compoundString _ => (stringMove s rest, s.delimiter, s.inMata)
  | _ => rootStep s rest

/-- Where explicit mode was entered, after a step from one delimiter mode to another that left
`past` behind. -/
def sinceAfter (since : Option Nat) (before after : DelimiterMode) (past : Past) : Option Nat :=
  if before = after then since
  else if after.isExplicit then some (Text.byteLength past.text)
  else none

/-- One step at a text that is not over: the state after it and the text then left. -/
def step (s : State) (c : Char) (rest : Text) : State × Text :=
  let settled := settle s c
  let (move, delimiter, inMata) := act settled (c :: rest)
  let past := settled.past.extend move.kind (c :: rest.take move.more)
  ({ modes := move.modes
     delimiter
     explicitSince := sinceAfter settled.explicitSince settled.delimiter delimiter past
     inMata
     past },
   rest.drop move.more)

/-- A step leaves less text than it found. -/
theorem length_step_lt (s : State) (c : Char) (rest : Text) :
    (step s c rest).2.length < (c :: rest).length := by
  simp only [step, List.length_drop, List.length_cons]; omega

/-- All steps over a text. -/
def run (s : State) : Text → State
  | [] => s
  | c :: rest =>
    let next := step s c rest
    run next.1 next.2
termination_by text => text.length
decreasing_by exact length_step_lt s c rest

/-- How the pass has ended: in the innermost comment still open, or in a continuation that its
line feed has just closed. -/
def endOf (last : Option TokenKind) : List Mode → CommentEnd
  | .blockComment depth :: _ => .unterminatedBlockComment depth
  | .continuation :: _ => .pendingContinuation
  | [] | .root :: _ =>
    if last = some .commentContinuation then .pendingContinuation else .clean
  | _ :: outer => endOf last outer

end Comments

/-- What the comment pass found. -/
structure CommentScan where
  /-- All characters of the text with their kinds. -/
  marks : List Mark
  /-- The comment still open at the end. -/
  endState : CommentEnd
  /-- The delimiter mode after the text. -/
  finalMode : DelimiterMode
  /-- The end of the directive that entered the final explicit mode, if a directive did. -/
  explicitSince : Option Nat
deriving DecidableEq, Repr

namespace CommentScan

/-- The tokens of the text. -/
def tokens (scan : CommentScan) : List Token := Token.ofMarks scan.marks

/-- The text without its comments. -/
def strippedText (scan : CommentScan) : Text :=
  (scan.marks.filter fun mark => !mark.kind.isComment).map (·.char)

/-- What a mark contributes to the statements: nothing for a comment, a line feed for a terminator,
and a blank for a line feed inside a statement that a terminator ends. -/
def statementChars (mark : Mark) : Text :=
  if mark.kind.isComment then []
  else match mark.kind with
    | .semicolonDelimiter => ['\n']
    | .namespaceBody => [if mark.char = '\n' then ' ' else mark.char]
    | _ => [mark.char]

/-- The text without its comments and with one statement to a line, whatever ends a statement. -/
def statementText (scan : CommentScan) : Text := scan.marks.flatMap statementChars

end CommentScan

/-- The comment pass over a text whose lines end in line feeds. -/
def scanComments (text : Text) (initial : DelimiterMode) : CommentScan :=
  let final := Comments.run (.initial initial) text
  { marks := final.past.reverse
    endState := Comments.endOf (final.past.head?.map (·.kind)) final.modes.entered
    finalMode := final.delimiter
    explicitSince := final.explicitSince }

namespace Comments

/-- A step moves characters from the text ahead to the text behind. -/
theorem text_step (s : State) (c : Char) (rest : Text) :
    (step s c rest).1.past.text ++ (step s c rest).2 = s.past.text ++ c :: rest := by
  have settled : (settle s c).past = s.past := by
    unfold settle; split <;> (try split) <;> rfl
  simp [step, settled]

/-- The pass reads all of the text. -/
theorem text_run (s : State) (text : Text) : (run s text).past.text = s.past.text ++ text := by
  fun_induction run s text with
  | case1 => simp
  | case2 s c rest next ih => rw [ih, text_step]

end Comments

/-- The marks of the comment pass spell the text. -/
theorem map_char_marks_scanComments (text : Text) (initial : DelimiterMode) :
    (scanComments text initial).marks.map (·.char) = text := by
  have h := Comments.text_run (.initial initial) text
  simpa [scanComments, Comments.State.initial, Past.text] using h

end DoRunner
