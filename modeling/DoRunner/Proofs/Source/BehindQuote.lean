import DoRunner.Proofs.Source.Words

/-!
# What stands behind a double quote

No opener and no closer reaches over a double quote, but for the apostrophe that may follow one. The
words of a line are looked for from its start and end at the quote at the latest, and the stars that
may follow a block comment stand behind nothing but blanks. So a step that is over before a double
quote would have been the same with any other text behind that quote (`Comments.step_quote`,
`Blocks.step_quote`).

Steps over the rest of a line do depend on what is behind the quote, but they read the quote too.
-/

namespace DoRunner

namespace Text

/-- A short beginning ends with the quote. -/
theorem startsWith_quote_of_length {beginning front : Text}
    (short : beginning.length ≤ front.length + 1) (back back' : Text) :
    startsWith beginning (front ++ '"' :: back') = startsWith beginning (front ++ '"' :: back) := by
  have upTo : ∀ t, startsWith beginning (front ++ '"' :: t)
      = startsWith beginning (front ++ ['"']) := by
    intro t
    rw [List.append_cons]
    exact startsWith_append_of_length (by rw [List.length_append]; exact short) t
  rw [upTo back, upTo back']

/-- A line that is over before the quote. -/
theorem firstLine_quote_of_length {front back : Text}
    (short : (firstLine (front ++ '"' :: back)).length ≤ front.length) (back' : Text) :
    firstLine (front ++ '"' :: back') = firstLine (front ++ '"' :: back) := by
  by_cases lf : '\n' ∈ front
  · rw [firstLine_append lf, firstLine_append lf]
  · -- the line reaches over the quote, so it is not that short
    rw [firstLine_append_of_notMem lf, firstLine_cons_of_ne (by decide), List.length_append,
      List.length_cons] at short
    omega

theorem firstLine_tail_quote_of_length {front back : Text}
    (short : (firstLine (front ++ '"' :: back).tail).length < front.length) (back' : Text) :
    firstLine (front ++ '"' :: back').tail = firstLine (front ++ '"' :: back).tail := by
  cases front with
  | nil => exact absurd short (Nat.not_lt_zero _)
  | cons c front => exact firstLine_quote_of_length (Nat.le_of_lt_succ short) back'

/-- What is dropped before the quote is dropped of what stands before it. -/
theorem drop_before_quote {n : Nat} {front back left : Text}
    (dropped : (front ++ '"' :: back).drop n = left ++ '"' :: back) :
    n ≤ front.length ∧ front.drop n = left := by
  have length := congrArg List.length dropped
  rw [List.length_drop, List.length_append, List.length_append, List.length_cons] at length
  have within : n ≤ front.length := by omega
  rw [List.drop_append_of_le_length within] at dropped
  exact ⟨within, List.append_cancel_right dropped⟩

theorem head?_quote (front back back' : Text) :
    (front ++ '"' :: back').head? = (front ++ '"' :: back).head? := by
  cases front <;> rfl

end Text

namespace Quote

variable {front : Text} (ahead : front ≠ []) (back back' : Text)

include ahead

/-- Quotes are two characters long, so all but the last of a text are read without what follows. -/
theorem startsWith_quote {beginning : Text} (two : beginning.length ≤ 2) :
    Text.startsWith beginning (front ++ '"' :: back')
      = Text.startsWith beginning (front ++ '"' :: back) := by
  have := List.length_pos_iff.mpr ahead
  exact Text.startsWith_quote_of_length (by omega) back back'

theorem opens?_quote (past : Past) :
    opens? past (front ++ '"' :: back') = opens? past (front ++ '"' :: back) := by
  rw [opens?_eq, opens?_eq, startsWith_quote ahead back back' (by decide),
    startsWith_quote ahead back back' (by decide)]

theorem step_quote (modes : ModeStack) :
    step modes (front ++ '"' :: back') = step modes (front ++ '"' :: back) := by
  rw [step_eq, step_eq, closesPlain_eq, closesPlain_eq,
    startsWith_quote ahead back back' (by decide), startsWith_quote ahead back back' (by decide),
    startsWith_quote ahead back back' (by decide)]

end Quote

/-! ## The comment pass -/

namespace Comments

open Text (StopsAtQuote stopsAtQuote_startsWith)

theorem stopsAtQuote_starOpener? : StopsAtQuote starOpener? := by
  intro front back back'
  rw [starOpener?_append_cons (by decide) (by decide),
    starOpener?_append_cons (by decide) (by decide)]

theorem stopsAtQuote_slashComment? (s : State) (lineCommentAllowed : Past → Bool) :
    StopsAtQuote (slashComment? s lineCommentAllowed) := by
  intro front back back'
  rw [slashComment?_eq, slashComment?_eq, stopsAtQuote_startsWith (by decide) front back back',
    stopsAtQuote_startsWith (by decide) front back back',
    stopsAtQuote_startsWith (by decide) front back back']

theorem stopsAtQuote_mataAfter (inMata : Bool) : StopsAtQuote (mataAfter inMata) := by
  intro front back back'
  rw [mataAfter, mataAfter, Line.stopsAtQuote_closesBlock front back back', Line.opensMata_quote,
    Line.opensMata_quote]

/-- The star that may follow a block comment stands before the quote, or there is none. -/
theorem stopsAtQuote_starFollows : StopsAtQuote starFollows := by
  intro front back back'
  rw [starFollows_eq, starFollows_eq, Text.head?_quote front back back',
    Text.trimStart_append_quote, Text.trimStart_append_quote,
    stopsAtQuote_startsWith (by decide) _ back back',
    stopsAtQuote_startsWith (by decide) _ back back']

section Moves

variable {front back : Text} (back' : Text) (s : State)

/-! The moves over the rest of a line are the same if they end before the quote; the others are the
same in any case. -/

theorem directiveMove_quote
    (within : (directiveMove s (front ++ '"' :: back)).more < front.length) :
    directiveMove s (front ++ '"' :: back') = directiveMove s (front ++ '"' :: back) := by
  rw [directiveMove, directiveMove, Text.firstLine_tail_quote_of_length within]

theorem starCommentMove_quote
    (within : (starCommentMove s (front ++ '"' :: back)).more < front.length) :
    starCommentMove s (front ++ '"' :: back') = starCommentMove s (front ++ '"' :: back) := by
  rw [starCommentMove_eq] at within
  rw [starCommentMove_eq, starCommentMove_eq, stopsAtQuote_startsWith (by decide) front back back',
    stopsAtQuote_startsWith (by decide) front back back',
    stopsAtQuote_startsWith (by decide) front back back']
  split at within
  · rename_i found
    rw [if_pos found, if_pos found,
      Text.firstLine_tail_quote_of_length (Nat.lt_of_succ_lt within)]
  · rename_i missing
    rw [if_neg missing, if_neg missing]

theorem continuationMove_quote
    (within : (continuationMove s (front ++ '"' :: back)).more < front.length) :
    continuationMove s (front ++ '"' :: back') = continuationMove s (front ++ '"' :: back) := by
  rw [continuationMove_eq] at within
  rw [continuationMove_eq, continuationMove_eq, Text.head?_quote front back back',
    stopsAtQuote_startsWith (by decide) front back back']
  split at within
  · rename_i ends
    rw [if_pos ends, if_pos ends]
  · rename_i goesOn
    rw [if_neg goesOn, if_neg goesOn]
    split at within
    · rename_i found
      rw [if_pos found, if_pos found, Text.firstLine_tail_quote_of_length within]
    · rename_i missing
      rw [if_neg missing, if_neg missing]

theorem lineCommentMove_quote :
    lineCommentMove s (front ++ '"' :: back') = lineCommentMove s (front ++ '"' :: back) := by
  rw [lineCommentMove_eq, lineCommentMove_eq, Text.head?_quote front back back']

theorem blockMove_quote (within : (blockMove s (front ++ '"' :: back)).more < front.length) :
    blockMove s (front ++ '"' :: back') = blockMove s (front ++ '"' :: back) := by
  rw [blockMove_eq] at within
  rw [blockMove_eq, blockMove_eq, stopsAtQuote_startsWith (by decide) front back back',
    stopsAtQuote_startsWith (by decide) front back back',
    stopsAtQuote_startsWith (by decide) front back back']
  split at within
  · rename_i found
    rw [if_pos found, if_pos found]
  · rename_i missing
    rw [if_neg missing, if_neg missing]
    split at within
    · rename_i found
      rw [if_pos found, if_pos found]
    · rename_i missing
      rw [if_neg missing, if_neg missing]
      split at within
      · rename_i found
        rw [if_pos found, if_pos found]
        rw [Text.startsWith_append_cons (by decide)] at found
        obtain ⟨after, rfl⟩ := Text.startsWith_iff.mp found
        have two : ∀ t, ("*/".toList ++ after ++ '"' :: t).drop 2 = after ++ '"' :: t :=
          fun _ => rfl
        rw [two] at within
        rw [two, two, stopsAtQuote_starFollows after back back']
        dsimp only at within
        split at within
        · -- the comment takes the rest of its line along, which ends before the quote as it does
          rename_i star
          have short : (Text.firstLine (after ++ '"' :: back)).length ≤ after.length := by
            rw [List.length_append, show "*/".toList.length = 2 from rfl] at within
            omega
          rw [if_pos star, if_pos star, Text.firstLine_quote_of_length short]
        · rename_i none
          rw [if_neg none, if_neg none]
      · rename_i missing
        rw [if_neg missing, if_neg missing]

variable (ahead : front ≠ [])

include ahead

theorem stringMove_quote :
    stringMove s (front ++ '"' :: back') = stringMove s (front ++ '"' :: back) := by
  rw [stringMove, stringMove, Quote.step_quote ahead back back']

theorem plainMove_quote :
    plainMove s (front ++ '"' :: back') = plainMove s (front ++ '"' :: back) := by
  rw [plainMove, plainMove, stopsAtQuote_slashComment? s _ front back back',
    Quote.opens?_quote ahead back back']

theorem explicitMove_quote (terminator : Char) :
    explicitMove s terminator (front ++ '"' :: back')
      = explicitMove s terminator (front ++ '"' :: back) := by
  rw [explicitMove, explicitMove, stopsAtQuote_slashComment? s _ front back back',
    Quote.opens?_quote ahead back back', Text.head?_quote front back back']

theorem rootStep_quote (within : (rootStep s (front ++ '"' :: back)).1.more < front.length) :
    rootStep s (front ++ '"' :: back') = rootStep s (front ++ '"' :: back) := by
  have directive := Line.stopsAtQuote_directive?.firstLine front back back'
  have star := stopsAtQuote_starOpener? front back back'
  unfold rootStep at within ⊢
  cases hd : s.delimiter with
  | newline =>
    rw [hd] at within
    dsimp only at within ⊢
    rw [directive, (stopsAtQuote_mataAfter s.inMata).firstLine front back back', star,
      plainMove_quote back' s ahead]
    split at within
    · rename_i start
      rw [if_pos start, if_pos start]
      split at within
      · rename_i found
        rw [if_pos found, if_pos found, directiveMove_quote back' s within]
      · rename_i missing
        rw [if_neg missing, if_neg missing]
    · rename_i inside
      rw [if_neg inside, if_neg inside]
  | explicit terminator =>
    rw [hd] at within
    dsimp only at within ⊢
    rw [directive, star, explicitMove_quote back' s ahead]
    split at within
    · rename_i start
      rw [if_pos start, if_pos start]
      split at within
      · rename_i found
        rw [if_pos found, if_pos found, directiveMove_quote back' s within]
      · rename_i missing
        rw [if_neg missing, if_neg missing]
    · rename_i inside
      rw [if_neg inside, if_neg inside]

/-- **What is done before a double quote** does not depend on what stands behind it. -/
theorem act_quote (within : (act s (front ++ '"' :: back)).1.more < front.length) :
    act s (front ++ '"' :: back') = act s (front ++ '"' :: back) := by
  unfold act at within ⊢
  cases htop : s.modes.top with
  | blockComment depth =>
    rw [htop] at within
    exact congrArg (·, _) (blockMove_quote back' s within)
  | starComment =>
    rw [htop] at within
    exact congrArg (·, _) (starCommentMove_quote back' s within)
  | lineComment => exact congrArg (·, _) (lineCommentMove_quote back' s)
  | continuation =>
    rw [htop] at within
    exact congrArg (·, _) (continuationMove_quote back' s within)
  | plainString => exact congrArg (·, _) (stringMove_quote back' s ahead)
  | compoundString depth => exact congrArg (·, _) (stringMove_quote back' s ahead)
  | _ =>
    rw [htop] at within
    exact rootStep_quote back' s ahead within

end Moves

/-- **A step that is over before a double quote** does not depend on what stands behind it. -/
theorem step_quote {s : State} {c : Char} {front back left : Text}
    (ended : (step s c (front ++ '"' :: back)).2 = left ++ '"' :: back) (back' : Text) :
    step s c (front ++ '"' :: back')
      = ((step s c (front ++ '"' :: back)).1, left ++ '"' :: back') := by
  have dropped : (front ++ '"' :: back).drop (act (settle s c) (c :: (front ++ '"' :: back))).1.more
      = left ++ '"' :: back := ended
  obtain ⟨within, rfl⟩ := Text.drop_before_quote dropped
  have acts : act (settle s c) (c :: (front ++ '"' :: back'))
      = act (settle s c) (c :: (front ++ '"' :: back)) :=
    @act_quote (c :: front) back back' (settle s c) (List.cons_ne_nil c front)
      (Nat.lt_succ_of_le within)
  unfold step
  dsimp only
  rw [acts, List.take_append_of_le_length within, List.take_append_of_le_length within,
    List.drop_append_of_le_length within]

end Comments

/-! ## The block pass -/

namespace Blocks

section Moves

variable {front back : Text} (back' : Text) (s : State)

theorem lineMove_quote (modes : ModeStack)
    (within : (lineMove (front ++ '"' :: back) modes).more < front.length) :
    lineMove (front ++ '"' :: back') modes = lineMove (front ++ '"' :: back) modes := by
  rw [lineMove, lineMove, Text.firstLine_tail_quote_of_length within]

variable (ahead : front ≠ [])

include ahead

theorem rootMove_quote (within : (rootMove s (front ++ '"' :: back)).more < front.length) :
    rootMove s (front ++ '"' :: back') = rootMove s (front ++ '"' :: back) := by
  have opens := Quote.opens?_quote ahead back back' s.past
  have line := Line.stopsAtQuote_opensEndBlock.firstLine front back back'
  obtain ⟨c, front, rfl⟩ := List.exists_cons_of_ne_nil ahead
  rw [List.cons_append] at within opens line ⊢
  rw [List.cons_append] at opens line ⊢
  rw [rootMove_cons] at within
  rw [rootMove_cons, rootMove_cons, opens, line]
  split at within
  · rename_i found
    rw [if_pos found, if_pos found]
    exact @lineMove_quote (c :: front) back back' _ within
  · rename_i missing
    rw [if_neg missing, if_neg missing]

theorem braceMove_quote :
    braceMove s (front ++ '"' :: back') = braceMove s (front ++ '"' :: back) := by
  have opens := Quote.opens?_quote ahead back back' s.past
  obtain ⟨c, front, rfl⟩ := List.exists_cons_of_ne_nil ahead
  rw [List.cons_append, List.cons_append] at opens ⊢
  rw [braceMove_cons, braceMove_cons, opens]

theorem endBlockMove_quote
    (within : (endBlockMove s (front ++ '"' :: back)).more < front.length) :
    endBlockMove s (front ++ '"' :: back') = endBlockMove s (front ++ '"' :: back) := by
  unfold endBlockMove at within ⊢
  rw [Quote.opens?_quote ahead back back', Line.stopsAtQuote_closesBlock.firstLine front back back']
  split at within
  · rename_i found
    rw [if_pos found, if_pos found, lineMove_quote back' _ within]
  · rename_i missing
    rw [if_neg missing, if_neg missing]

theorem stringMove_quote :
    stringMove s (front ++ '"' :: back') = stringMove s (front ++ '"' :: back) := by
  rw [stringMove, stringMove, Quote.step_quote ahead back back']

/-- **What is done before a double quote** does not depend on what stands behind it. -/
theorem act_quote (within : (act s (front ++ '"' :: back)).more < front.length) :
    act s (front ++ '"' :: back') = act s (front ++ '"' :: back) := by
  unfold act at within ⊢
  cases htop : s.modes.top with
  | plainString => exact stringMove_quote back' s ahead
  | compoundString depth => exact stringMove_quote back' s ahead
  | braceBlock depth => exact braceMove_quote back' s ahead
  | endBlock =>
    rw [htop] at within
    exact endBlockMove_quote back' s ahead within
  | _ =>
    rw [htop] at within
    exact rootMove_quote back' s ahead within

end Moves

/-- **A step that is over before a double quote** does not depend on what stands behind it. -/
theorem step_quote {s : State} {c : Char} {front back left : Text}
    (ended : (step s c (front ++ '"' :: back)).2 = left ++ '"' :: back) (back' : Text) :
    step s c (front ++ '"' :: back')
      = ((step s c (front ++ '"' :: back)).1, left ++ '"' :: back') := by
  have dropped : (front ++ '"' :: back).drop (act (settle s c) (c :: (front ++ '"' :: back))).more
      = left ++ '"' :: back := ended
  obtain ⟨within, rfl⟩ := Text.drop_before_quote dropped
  have acts : act (settle s c) (c :: (front ++ '"' :: back'))
      = act (settle s c) (c :: (front ++ '"' :: back)) :=
    @act_quote (c :: front) back back' (settle s c) (List.cons_ne_nil c front)
      (Nat.lt_succ_of_le within)
  unfold step
  dsimp only
  rw [acts, List.take_append_of_le_length within, List.take_append_of_le_length within,
    List.drop_append_of_le_length within]

end Blocks

end DoRunner
