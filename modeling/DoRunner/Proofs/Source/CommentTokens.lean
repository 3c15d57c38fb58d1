import DoRunner.Proofs.Source.Collecting
import DoRunner.Proofs.Source.Terminated

/-!
# The tokens of the comment pass

The pass marks each character that it reads, once, and never goes back on a mark. So every mark can
be traced to the step that made it (`Reached.exists_step`), and what is known of single steps is
known of the tokens: a terminator is marked by a step that reads just the character that ends
statements at that moment (`isDelimiter_act`), and nothing else is ever marked as one.
-/

namespace DoRunner.Comments

/-! ## Steps on the way -/

/-- What the pass over a text comes by: a state and the text that is then left. -/
inductive Reached (initial : DelimiterMode) (text : Text) : State → Text → Prop where
  | start : Reached initial text (.initial initial) text
  | step {s : State} {c : Char} {rest : Text} (before : Reached initial text s (c :: rest)) :
      Reached initial text (step s c rest).1 (step s c rest).2

theorem Reached.run {initial : DelimiterMode} {text : Text} {s : State} {left : Text}
    (h : Reached initial text s left) : Reached initial text (Comments.run s left) [] := by
  fun_induction Comments.run s left with
  | case1 s => exact h
  | case2 s c rest next ih => exact ih h.step

/-- A step puts the marks that it makes on top of those that are there. -/
theorem past_step (s : State) (c : Char) (rest : Text) :
    (step s c rest).1.past = marksRead s c rest ++ s.past := by
  show (settle s c).past.extend _ _ = _
  rw [Past.extend_eq, settle_past]
  rfl

/-- What is read is put on top of what has been read. -/
theorem exists_past_run (s : State) (text : Text) :
    ∃ later : Past, (run s text).past = later ++ s.past ∧ later.reverse.map (·.char) = text := by
  obtain ⟨later, past⟩ : ∃ later, (run s text).past = later ++ s.past := by
    fun_induction run s text with
    | case1 s => exact ⟨[], rfl⟩
    | case2 s c rest next ih =>
      obtain ⟨later, past⟩ := ih
      refine ⟨later ++ marksRead s c rest, ?_⟩
      rw [past, past_step, List.append_assoc]
  refine ⟨later, past, ?_⟩
  have spelt := text_run s text
  rw [past, Past.text_append, List.append_cancel_left_eq] at spelt
  rw [← spelt, Past.text, List.map_reverse]

/-- **Every mark was made by a step,** and nothing that stood before it has changed since. -/
theorem Reached.exists_step {initial : DelimiterMode} {text : Text} {s : State} {left : Text}
    (h : Reached initial text s left) {later earlier : Past} {mark : Mark}
    (split : s.past = later ++ mark :: earlier) :
    ∃ s₀ c rest newer older, Reached initial text s₀ (c :: rest) ∧
      marksRead s₀ c rest = newer ++ mark :: older ∧ earlier = older ++ s₀.past := by
  induction h generalizing later with
  | start => exact absurd split (by simp [State.initial])
  | @step s c rest before ih =>
    rw [past_step] at split
    rcases List.append_eq_append_iff.mp split with ⟨newer, -, old⟩ | ⟨read, hread, old⟩
    · exact ih old
    · -- the mark is among those just made, or it is the latest of the others
      rcases read with _ | ⟨m, older⟩
      · exact @ih [] old.symm
      · obtain ⟨rfl, rfl⟩ := List.cons.inj old
        exact ⟨s, c, rest, later, older, before, hread, rfl⟩

theorem Reached.text {initial : DelimiterMode} {text : Text} {s : State} {left : Text}
    (h : Reached initial text s left) : s.past.text ++ left = text := by
  induction h with
  | start => rfl
  | step before ih => exact (text_step _ _ _).trans ih

/-- In the explicit mode only a directive line changes what ends a statement. -/
theorem Reached.delimiter {initial : DelimiterMode} {text : Text} {s : State} {left : Text}
    (h : Reached initial text s left) (explicit : initial.isExplicit = true)
    (none : ∀ line ∈ Text.lines text, Line.directive? line ≠ some .newline) :
    s.delimiter = initial := by
  induction h with
  | start => rfl
  | @step s c rest before ih =>
    rw [← ih]
    show (act (settle s c) (c :: rest)).2.1 = s.delimiter
    rw [← settle_delimiter s c]
    refine act_delimiter_of_explicit (by rwa [settle_delimiter, ih]) fun start => ?_
    rw [settle_past] at start
    exact none _ (by rw [← before.text]; exact firstLine_mem_lines start (c :: rest))

/-! ## What is marked as a terminator -/

section Kinds

variable {s : State} {c : Char} {rest : Text}

/-- Within a statement a step marks no terminator but the character that ends statements. -/
theorem StatementMove.isDelimiter {move : Move} (reads : StatementMove s (c :: rest) move)
    (h : move.kind.isDelimiter = true) :
    move = ⟨.semicolonDelimiter, 0, s.modes⟩ ∧ s.delimiter = .explicit c := by
  cases reads with
  | comment opens =>
    obtain ⟨t, -, rfl⟩ | ⟨t, -, rfl⟩ | ⟨t, -, rfl⟩ := slashComment?_cases opens <;>
      exact absurd h Bool.false_ne_true
  | string => exact absurd ((plain_literalKind s.delimiter).symm.trans h) Bool.false_ne_true
  | terminator explicit here =>
    rw [Option.some.inj here]
    exact ⟨rfl, explicit⟩
  | text =>
    revert h
    cases s.delimiter <;> exact fun h => absurd h Bool.false_ne_true

theorem isDelimiter_rootStep (h : (rootStep s (c :: rest)).1.kind.isDelimiter = true) :
    (rootStep s (c :: rest)).1 = ⟨.semicolonDelimiter, 0, s.modes⟩ ∧ s.delimiter = .explicit c := by
  have does := rootStep_inv s (c :: rest)
  generalize (rootStep s (c :: rest)).1 = move, (rootStep s (c :: rest)).2.1 = delimiter at does h
  cases does with
  | directive => exact absurd h Bool.false_ne_true
  | star => exact absurd h Bool.false_ne_true
  | statement _ reads => exact reads.isDelimiter h

/-- **A step marks a terminator** only where it reads the character that ends statements, and
nothing else. -/
theorem isDelimiter_act (h : (act s (c :: rest)).1.kind.isDelimiter = true) :
    (act s (c :: rest)).1 = ⟨.semicolonDelimiter, 0, s.modes⟩ ∧ s.delimiter = .explicit c := by
  have block : (blockMove s (c :: rest)).kind = .commentBlock := by
    unfold blockMove
    split <;> rfl
  have star : (starCommentMove s (c :: rest)).kind.isDelimiter = false := by
    rw [starCommentMove_eq]
    split
    · rfl
    · split
      · split <;> rfl
      · split <;> rfl
  have line : (lineCommentMove s (c :: rest)).kind.isDelimiter = false := by
    rw [lineCommentMove_eq]
    split
    · cases s.delimiter <;> rfl
    · rfl
  have continued : (continuationMove s (c :: rest)).kind.isDelimiter = false := by
    rw [continuationMove_eq]
    split
    · rfl
    · split <;> rfl
  have string : (stringMove s (c :: rest)).kind.isDelimiter = false := by
    unfold stringMove
    cases s.delimiter <;> rfl
  unfold act at h ⊢
  split at h
  · rw [block] at h
    exact absurd h (by decide)
  · rw [star] at h
    exact absurd h (by decide)
  · rw [line] at h
    exact absurd h (by decide)
  · rw [continued] at h
    exact absurd h (by decide)
  · rw [string] at h
    exact absurd h (by decide)
  · rw [string] at h
    exact absurd h (by decide)
  · exact isDelimiter_rootStep h

end Kinds

/-- The same of the marks that a step makes. -/
theorem marksRead_of_isDelimiter {s : State} {c : Char} {rest : Text} {mark : Mark}
    (m : mark ∈ marksRead s c rest) (delimiter : mark.kind.isDelimiter = true) :
    marksRead s c rest = [⟨.semicolonDelimiter, c⟩] ∧ s.delimiter = .explicit c := by
  obtain ⟨d, -, rfl⟩ := List.mem_map.mp (List.mem_reverse.mp m)
  obtain ⟨move, terminator⟩ := isDelimiter_act delimiter
  rw [settle_delimiter] at terminator
  refine ⟨?_, terminator⟩
  unfold marksRead
  dsimp only
  rw [move]
  rfl

/-- **What does not occur ends no statement.** Without a line that is a directive, only the character
that ends statements from the start is ever marked as a terminator. -/
theorem isDelimiter_of_notMem {terminator : Char} {text : Text} (missing : terminator ∉ text)
    (none : ∀ line ∈ Text.lines text, Line.directive? line ≠ some .newline) {mark : Mark}
    (m : mark ∈ (run (.initial (.explicit terminator)) text).past) :
    mark.kind.isDelimiter = false := by
  by_contra delimiter
  obtain ⟨later, earlier, split⟩ := List.append_of_mem m
  obtain ⟨s, c, rest, newer, older, reached, read, -⟩ := Reached.start.run.exists_step split
  have made : mark ∈ marksRead s c rest := by
    rw [read]
    exact List.mem_append_right _ List.mem_cons_self
  obtain ⟨-, ends⟩ := marksRead_of_isDelimiter made (eq_true_of_ne_false delimiter)
  rw [reached.delimiter rfl none] at ends
  apply missing
  rw [← reached.text, DelimiterMode.explicit.inj ends]
  exact List.mem_append_right _ List.mem_cons_self

/-! ## The tokens -/

/-- What a step reads is collected as of the kind that it is marked with. -/
def collect (tokens : Collected) (s : State) (c : Char) (rest : Text) : Collected :=
  let move := (act (settle s c) (c :: rest)).1
  tokens.push move.kind (c :: rest.take move.more) (.ofNat (Text.byteLength s.past.text))
    (.ofNat (Text.byteLength (step s c rest).1.past.text))

theorem collects_step {tokens : Collected} {s : State} (c : Char) (rest : Text)
    (collects : Collects tokens s.past)
    (short : Text.byteLength (s.past.text ++ c :: rest) ≤ ByteOffset.limit) :
    Collects (collect tokens s c rest) (step s c rest).1.past := by
  unfold collect step
  dsimp only
  rw [settle_past, Past.text_extend]
  refine collects.push (List.cons_ne_nil _ _) (fun delimiter => ?_) ?_
  · rw [(isDelimiter_act delimiter).1]
    rfl
  · exact (Text.byteLength_append_take_le _ (c :: rest) (_ + 1)).trans short

/-- Where a terminator stands among the tokens: the pass came by there in the explicit mode with
this character. -/
def EndsStatement (initial : DelimiterMode) (text : Text) (before : List Token) (token : Token) :
    Prop :=
  ∃ s terminator rest, Reached initial text s (terminator :: rest) ∧
    s.past.text = Token.textOf before ∧ s.delimiter = .explicit terminator ∧
    token.text = [terminator]

theorem endsStatement_of_isDelimiter {initial : DelimiterMode} {text : Text}
    {before after : List Token} {token : Token}
    (h : (scanComments text initial).tokens = before ++ token :: after)
    (delimiter : token.kind.isDelimiter = true) :
    token.kind = .semicolonDelimiter ∧ EndsStatement initial text before token := by
  have member : token ∈ (scanComments text initial).tokens := by
    rw [h]
    exact List.mem_append_right _ List.mem_cons_self
  obtain ⟨c, single⟩ := List.length_eq_one_iff.mp
    (Token.length_of_isDelimiter (Token.mem_runs_of_mem member) delimiter)
  -- the token is one mark of the past, and the tokens before it are all that is behind that mark
  have split : (run (.initial initial) text).past = (after.flatMap Token.marks).reverse ++
      ⟨token.kind, c⟩ :: (before.flatMap Token.marks).reverse := by
    have marks : (scanComments text initial).marks = _ := Token.marks_split h
    have own : token.marks = [⟨token.kind, c⟩] := congrArg (List.map _) single
    rw [← List.reverse_reverse (run (.initial initial) text).past]
    show (scanComments text initial).marks.reverse = _
    rw [marks, own]
    simp
  obtain ⟨s, d, rest, newer, older, reached, read, earlier⟩ := Reached.start.run.exists_step split
  have made : ⟨token.kind, c⟩ ∈ marksRead s d rest := by
    rw [read]
    exact List.mem_append_right _ List.mem_cons_self
  obtain ⟨only, terminator⟩ := marksRead_of_isDelimiter made delimiter
  rw [only] at read
  obtain ⟨rfl, here, rfl⟩ := List.append_eq_singleton_iff.mp read.symm |>.resolve_right (by simp)
    |>.imp_right List.cons.inj
  obtain ⟨kind, rfl⟩ := Mark.mk.inj here
  refine ⟨kind, s, c, rest, reached, ?_, terminator, single⟩
  rw [← Token.map_char_flatMap_marks, Past.text, ← List.nil_append s.past, ← earlier,
    List.map_reverse, List.reverse_reverse]

end Comments

/-- **The comment pass accounts for its text.** It ends after no more steps than there are
characters, also when it collects its tokens on the way; they tile the text, only terminators have a
neighbour of their own kind, and each of them is the one character that ended statements where it
stands. -/
theorem scanComments_covers (initial : DelimiterMode) {text : Text}
    (short : Text.byteLength text < Nat.pow 2 32) :
    let tokens := (scanComments text initial).tokens
    stepsWithin (collecting Comments.step Comments.collect) text.length (.initial initial, []) text
      = some (Comments.run (.initial initial) text, tokens.reverse) ∧
    Token.Covers text tokens ∧
    tokens.IsChain (fun a b => a.kind = b.kind → a.kind = .semicolonDelimiter) ∧
    ∀ before token after, tokens = before ++ token :: after → token.kind = .semicolonDelimiter →
      Comments.EndsStatement initial text before token := by
  intro tokens
  have spelled := map_char_marks_scanComments text initial
  refine ⟨?_, ?_, ?_, ?_⟩
  · have ends : stepsWithin Comments.step text.length (.initial initial) text
        = some (Comments.run (.initial initial) text) :=
      stepsWithin_of_shorter (fun s => by rw [Comments.run]) (fun s c rest => by rw [Comments.run])
        Comments.length_step_lt (Nat.le_refl _) _
    exact stepsWithin_collecting Comments.text_step Comments.collects_step .nothing
      (Nat.le_of_lt_succ short) ends
  · have covers := @Token.covers_ofMarks (scanComments text initial).marks
    rw [spelled] at covers
    exact covers short
  · refine (Token.isChain_ofMarks _).imp_of_mem_imp ?_
    intro a b ha hb apart same
    obtain ⟨before, after, split⟩ := List.append_of_mem ha
    exact (Comments.endsStatement_of_isDelimiter split (apart same)).1
  · intro before token after split kind
    exact (Comments.endsStatement_of_isDelimiter split (by rw [kind]; rfl)).2

/-- Characters of two bytes, a directive, a comment in a statement, and two terminators in a row. -/
theorem scanComments_covers_twoTerminators :
    let text := "* né\n#delimit ;\nsum /* c */ y;;".toList
    let tokens := (scanComments text .newline).tokens
    Text.byteLength text < Nat.pow 2 32 ∧
    tokens.map (fun token => (token.kind, token.span.start.val, token.span.stop.val)) =
      [(.commentLine, 0, 5), (.plainText, 5, 6), (.commentLine, 6, 16), (.namespaceBody, 16, 21),
        (.commentBlock, 21, 28), (.namespaceBody, 28, 30), (.semicolonDelimiter, 30, 31),
        (.semicolonDelimiter, 31, 32)] ∧
    Token.Covers text tokens ∧
    ∃ before token, tokens = before ++ [token] ∧
      Comments.EndsStatement .newline text before token := by
  intro text tokens
  have short : Text.byteLength text < Nat.pow 2 32 := by decide
  obtain ⟨-, covers, -, ends⟩ := scanComments_covers .newline short
  refine ⟨short, by decide +kernel, covers, tokens.dropLast, ?_⟩
  have last : tokens = tokens.dropLast ++
      [⟨.semicolonDelimiter, [';'], .between (.ofNat 31) (.ofNat 32)⟩] := by decide +kernel
  exact ⟨_, last, ends _ _ [] last rfl⟩

end DoRunner
