import DoRunner.Statement.Pattern

/-!
# The head of a statement

A command may be wrapped in prefixes: some change whether it echoes (`capture`, `quietly`,
`noisily`), some run it by groups and end in a colon (`by`, `bysort`). `statementHead` takes the
prefixes off and says what it met on the way and what the command is.
-/

namespace DoRunner

/-- The prefixes that change whether a statement echoes. -/
def echoPrefixes : Catalog :=
  [⟨"capture".toList, 3⟩, ⟨"quietly".toList, 3⟩, ⟨"noisily".toList, 1⟩]

/-- The prefixes under which a statement may not echo at all. -/
def silencingPrefixes : Catalog := [⟨"capture".toList, 3⟩, ⟨"quietly".toList, 3⟩]

/-- The prefixes that run a command by groups. -/
def groupPrefixes : Catalog := [⟨"bysort".toList, 3⟩, ⟨"by".toList, 2⟩]

/-- What a statement begins with. -/
structure StatementHead where
  /-- Whether a prefix that changes the echo stands before the command. -/
  prefixed : Bool
  /-- Whether a prefix under which the echo may be missing stands before the command. -/
  silenced : Bool
  /-- The command word; empty when there is none. -/
  command : Text
  /-- What follows the command word. -/
  rest : Text
deriving DecidableEq, Repr

/-- A letter or number, or the underscore: what command words are made of. -/
def isCommandChar (c : Char) : Bool := isAlphanumeric c || c == '_'

/-- The leading word of a text. -/
def leadingWord (t : Text) : Text := t.takeWhile isCommandChar

/-- What follows the leading word of a text. -/
def afterWord (t : Text) : Text := t.dropWhile isCommandChar

/-- What an echo prefix wraps: the text after it, past blanks and at most one colon. -/
def afterEchoPrefix (t : Text) : Text :=
  match Text.trimStart t with
  | ':' :: more => Text.trimStart more
  | more => more

theorem length_trimStart_le (t : Text) : (Text.trimStart t).length ≤ t.length :=
  (List.dropWhile_sublist _).length_le

theorem length_afterEchoPrefix_le (t : Text) : (afterEchoPrefix t).length ≤ t.length := by
  have first := length_trimStart_le t
  unfold afterEchoPrefix
  split
  · rename_i more h
    rw [h] at first
    have second := length_trimStart_le more
    simp at first
    omega
  · exact first

/-- What follows a non-empty leading word is shorter than the text. -/
theorem length_afterWord_lt {t : Text} (h : leadingWord t ≠ []) :
    (afterWord t).length < t.length := by
  have both : (leadingWord t).length + (afterWord t).length = t.length := by
    rw [← List.length_append, leadingWord, afterWord, List.takeWhile_append_dropWhile]
  have := List.length_pos_iff.2 h
  omega

theorem length_cutAt?_lt {mark : Char} {t before after : Text}
    (h : Text.cutAt? mark t = some (before, after)) : after.length < t.length := by
  unfold Text.cutAt? at h
  split at h
  · simp at h
  · rename_i c rest hd
    have len := (List.dropWhile_sublist (l := t) (· ≠ mark)).length_le
    simp at h
    simp only [hd, List.length_cons, h.2] at len
    omega

/-- The head of a text that starts with no blank, after prefixes already taken off. -/
def headFrom (prefixed silenced : Bool) (t : Text) : StatementHead :=
  let word := leadingWord t
  if _ : word = [] then ⟨prefixed, silenced, word, afterWord t⟩
  else if echoPrefixes.accepts word then
    headFrom true (silenced || silencingPrefixes.accepts word) (afterEchoPrefix (afterWord t))
  else if groupPrefixes.accepts word then
    match _ : Text.cutAt? ':' (afterWord t) with
    | some (_, more) => headFrom prefixed silenced (Text.trimStart more)
    | none => ⟨prefixed, silenced, word, afterWord t⟩
  else ⟨prefixed, silenced, word, afterWord t⟩
termination_by t.length
decreasing_by
  · exact Nat.lt_of_le_of_lt (length_afterEchoPrefix_le _) (length_afterWord_lt (by assumption))
  · exact Nat.lt_of_le_of_lt (length_trimStart_le _)
      (Nat.lt_trans (length_cutAt?_lt (by assumption)) (length_afterWord_lt (by assumption)))

/-- The head of a statement: its prefixes and the command that they wrap. -/
def statementHead (line : Text) : StatementHead := headFrom false false (Text.trimStart line)

/-- Whether a line of the text has a prefix that changes its echo. -/
def containsEchoPrefix (t : Text) : Bool := (Text.lines t).any fun line =>
  (statementHead line).prefixed

end DoRunner
