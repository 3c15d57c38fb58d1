import DoRunner.Source.Token

/-!
# What a scanner has behind it

Several rules look back: a comment opener counts only after a blank, a quote does not open a string
after a backquote, a directive stands at the start of a line. A scanner keeps the marks it has made,
the latest first, and these rules are questions about that list. Nothing else about the text
already read is remembered.
-/

namespace DoRunner

/-- The marks made so far, the latest first. -/
abbrev Past := List Mark

namespace Past

/-- The past after more characters of one kind. -/
def extend (past : Past) (kind : TokenKind) (chars : Text) : Past :=
  chars.foldl (fun past c => ⟨kind, c⟩ :: past) past

/-- The text read so far, in reading order. -/
def text (past : Past) : Text := (past.map (·.char)).reverse

/-- Whether a line starts here. -/
def atLineStart : Past → Bool
  | [] => true
  | mark :: _ => mark.char == '\n'

/-- Whether a line starts here or the last character was a blank. -/
def afterBlank : Past → Bool
  | [] => true
  | mark :: _ => isBlank mark.char

/-- Whether the last character was a backquote. -/
def afterBackquote : Past → Bool
  | [] => false
  | mark :: _ => mark.char == '\x60'

/-- Whether the line so far is blanks, at least one of them. -/
def indented (past : Past) : Bool :=
  !atLineStart past && (past.takeWhile fun mark => mark.char != '\n').all fun mark =>
    isBlank mark.char

/-- Whether `c` is the last character that is no blank, and something blank stands after it. -/
def spacedAfter (c : Char) (past : Past) : Bool :=
  afterBlank past && (past.find? fun mark => !isBlank mark.char).any fun mark => mark.char == c

/-- Gives all of the current line so far one kind. -/
def remarkLine (kind : TokenKind) (past : Past) : Past :=
  (past.takeWhile fun mark => mark.char != '\n').map (fun mark => ⟨kind, mark.char⟩) ++
    past.dropWhile fun mark => mark.char != '\n'

@[simp] theorem extend_nil (past : Past) (kind : TokenKind) : extend past kind [] = past := rfl

theorem extend_eq (past : Past) (kind : TokenKind) (chars : Text) :
    extend past kind chars = (chars.map fun c => ⟨kind, c⟩).reverse ++ past := by
  induction chars generalizing past with
  | nil => rfl
  | cons c chars ih => simp [extend]

/-- Extending the past extends the text read by just those characters. -/
@[simp] theorem text_extend (past : Past) (kind : TokenKind) (chars : Text) :
    text (extend past kind chars) = text past ++ chars := by
  simp [extend_eq, text, Function.comp_def]

/-- Remarking a line changes no character. -/
@[simp] theorem text_remarkLine (kind : TokenKind) (past : Past) :
    text (remarkLine kind past) = text past := by
  have same : ∀ marks : Past, (marks.map fun mark => (⟨kind, mark.char⟩ : Mark)).map (·.char)
      = marks.map (·.char) := by simp
  rw [text, remarkLine, List.map_append, same, ← List.map_append,
    List.takeWhile_append_dropWhile, text]

end Past

end DoRunner
