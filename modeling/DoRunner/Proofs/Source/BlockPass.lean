import DoRunner.Proofs.Source.Lookahead

/-!
# The block pass over whole lines

The block pass never looks or reads further than its line, and it looks back at no more than the
last character. So it goes on behind whole lines from where it would end without more text
(`run_append`), and from any text that ends in a line feed as from no text (`run_alike`).

Blanks at the end of a line open and close nothing (`run_respaced`).
-/

namespace DoRunner.Blocks

theorem run_cons (s : State) (c : Char) (rest : Text) :
    run s (c :: rest) = run (step s c rest).1 (step s c rest).2 := by
  rw [run]

/-! ## Moves -/

theorem rootMove_cons (s : State) (c : Char) (rest : Text) :
    rootMove s (c :: rest) =
      if s.past.atLineStart ∧ Line.opensEndBlock (Text.firstLine (c :: rest)) then
        lineMove (c :: rest) (s.modes.push .endBlock)
      else
        match Quote.opens? s.past (c :: rest) with
        | some (mode, more) => ⟨.stringLiteral, more, s.modes.push mode, false⟩
        | none =>
          if c = '\x7b' then ⟨.blockBody, 0, s.modes.push (.braceBlock 1), true⟩
          else if c = '\n' then ⟨.newlineDelimiter, 0, s.modes, false⟩
          else ⟨.plainText, 0, s.modes, false⟩ := by
  unfold rootMove
  split
  · rfl
  · cases Quote.opens? s.past (c :: rest) with
    | some opened => rfl
    | none =>
      by_cases hb : c = '\x7b'
      · subst hb
        rfl
      · by_cases hl : c = '\n'
        · subst hl
          rfl
        · simp [hb, hl]

theorem braceMove_cons (s : State) (c : Char) (rest : Text) :
    braceMove s (c :: rest) =
      match Quote.opens? s.past (c :: rest) with
      | some (mode, more) => ⟨.blockBody, more, s.modes.push mode, false⟩
      | none =>
        if c = '\x7b' then ⟨.blockBody, 0, s.modes.push (.braceBlock 1), false⟩
        else if c = '\x7d' then ⟨.blockBody, 0, s.modes.pop, false⟩
        else ⟨.blockBody, 0, s.modes, false⟩ := by
  unfold braceMove
  cases Quote.opens? s.past (c :: rest) with
  | some opened => rfl
  | none =>
    by_cases hb : c = '\x7b'
    · subst hb
      rfl
    · by_cases hl : c = '\x7d'
      · subst hl
        rfl
      · simp [hb, hl]

/-- **A step reads no further than its line.** -/
theorem more_act (s : State) (c : Char) (rest : Text) :
    (act s (c :: rest)).more ≤ (Text.firstLine rest).length := by
  have root : (rootMove s (c :: rest)).more ≤ (Text.firstLine rest).length := by
    rw [rootMove_cons]
    split
    · exact Nat.le_refl _
    · split
      · rename_i mode more h
        exact Quote.more_opens? h
      · split
        · exact Nat.zero_le _
        · split <;> exact Nat.zero_le _
  have brace : (braceMove s (c :: rest)).more ≤ (Text.firstLine rest).length := by
    rw [braceMove_cons]
    split
    · rename_i mode more h
      exact Quote.more_opens? h
    · split
      · exact Nat.zero_le _
      · split <;> exact Nat.zero_le _
  have endBlock : (endBlockMove s (c :: rest)).more ≤ (Text.firstLine rest).length := by
    unfold endBlockMove
    split
    · exact Nat.le_refl _
    · split
      · rename_i mode more h
        exact Quote.more_opens? h
      · exact Nat.zero_le _
  have string : (stringMove s (c :: rest)).more ≤ (Text.firstLine rest).length :=
    Quote.more_step s.modes
  unfold act
  split
  · exact string
  · exact string
  · exact brace
  · exact endBlock
  · exact root

/-- A step over one character that does not claim the line. -/
theorem step_eq_of_act {s : State} {c : Char} {rest : Text} {kind : TokenKind} {modes : ModeStack}
    (settled : settle s c = s) (acts : act s (c :: rest) = ⟨kind, 0, modes, false⟩) :
    step s c rest = (⟨modes, ⟨kind, c⟩ :: s.past⟩, rest) := by
  unfold step
  rw [settled]
  dsimp only
  rw [acts]
  rfl

/-- A step over the rest of its line. -/
theorem step_lineMove {s : State} {c : Char} {rest line t : Text} {modes : ModeStack}
    (split : rest = line ++ t) (ends : Text.firstLine rest = line)
    (acts : act (settle s c) (c :: rest) = lineMove (c :: rest) modes) :
    step s c rest = (⟨modes, (settle s c).past.extend .blockBody (c :: line)⟩, t) := by
  unfold step
  dsimp only
  rw [acts, lineMove, List.tail_cons, ends, split]
  dsimp only
  rw [List.take_left, List.drop_left]
  rfl

/-! ## More text -/

section Append

variable {c : Char} {rest : Text} (h : '\n' ∈ c :: rest) (s : State) (b : Text)

include h

theorem lineMove_append (first : c ≠ '\n') (modes : ModeStack) :
    lineMove (c :: (rest ++ b)) modes = lineMove (c :: rest) modes := by
  have tail := Text.firstLine_tail_append (t := c :: rest) h (by simpa using first) b
  rw [lineMove, lineMove, ← List.cons_append, tail]

theorem act_append : act s (c :: (rest ++ b)) = act s (c :: rest) := by
  have line : Text.firstLine (c :: (rest ++ b)) = Text.firstLine (c :: rest) :=
    Text.firstLine_append (t := c :: rest) h b
  have opens : ∀ past, Quote.opens? past (c :: (rest ++ b)) = Quote.opens? past (c :: rest) :=
    Quote.opens?_append (a := c :: rest) h b
  have first : Text.firstLine (c :: rest) ≠ [] → c ≠ '\n' := by
    rintro hne rfl
    exact hne rfl
  have root : rootMove s (c :: (rest ++ b)) = rootMove s (c :: rest) := by
    rw [rootMove_cons, rootMove_cons, line, opens]
    split
    · rename_i found
      rw [lineMove_append h b (first ?_)]
      intro empty
      rw [empty] at found
      exact absurd found.2 (by decide)
    · rfl
  have endBlock : endBlockMove s (c :: (rest ++ b)) = endBlockMove s (c :: rest) := by
    rw [endBlockMove, endBlockMove, line, opens]
    split
    · rename_i found
      rw [lineMove_append h b (first ?_)]
      intro empty
      rw [empty] at found
      exact absurd found.2 (by decide)
    · rfl
  have string : stringMove s (c :: (rest ++ b)) = stringMove s (c :: rest) := by
    rw [stringMove, stringMove, ← List.cons_append, Quote.step_append h]
  unfold act
  rw [root, endBlock, string, braceMove_cons, braceMove_cons, opens]

end Append

/-- More text that does not change a move does not change the step. -/
theorem step_of_act {s : State} {c : Char} {rest b : Text}
    (acts : act (settle s c) (c :: (rest ++ b)) = act (settle s c) (c :: rest)) :
    step s c (rest ++ b) = ((step s c rest).1, (step s c rest).2 ++ b) := by
  have within : (act (settle s c) (c :: rest)).more ≤ rest.length :=
    (more_act _ c rest).trans (Text.length_firstLine_le rest)
  unfold step
  dsimp only
  rw [acts, List.take_append_of_le_length within, List.drop_append_of_le_length within]

/-- **More text behind whole lines** does not change how they are read. -/
theorem run_append (s : State) {a : Text} (whole : Text.Whole a) (b : Text) :
    run s (a ++ b) = run (run s a) b := by
  fun_induction run s a with
  | case1 => rfl
  | case2 s c rest next ih =>
    have shorter : next.2 <:+ c :: rest :=
      (List.drop_suffix _ rest).trans (List.suffix_cons c rest)
    rw [List.cons_append, run_cons, step_of_act (act_append (whole.mem (List.cons_ne_nil c rest)) _ b)]
    exact ih (whole.of_suffix shorter)

/-! ## What stands before -/

/-- The pass goes on alike from two states: it is inside of the same, and it sees the same behind
it. -/
structure Alike (s s' : State) : Prop where
  /-- Both are inside of the same. -/
  modes : s'.modes = s.modes
  /-- A line starts after both or after neither. -/
  atLineStart : s'.past.atLineStart = s.past.atLineStart
  /-- Both end in a backquote, or neither does. -/
  afterBackquote : s'.past.afterBackquote = s.past.afterBackquote

/-- What is read last is all that is seen. -/
theorem alike_extend (modes : ModeStack) (p q : Past) (kind kind' : TokenKind) (front : Text)
    (c : Char) : Alike ⟨modes, p.extend kind (front ++ [c])⟩ ⟨modes, q.extend kind' (front ++ [c])⟩ := by
  refine ⟨rfl, ?_, ?_⟩
  · rw [Past.extend_eq, Past.extend_eq, List.map_append, List.map_append, List.reverse_append,
      List.reverse_append]
    rfl
  · rw [Past.extend_eq, Past.extend_eq, List.map_append, List.map_append, List.reverse_append,
      List.reverse_append]
    rfl

theorem settle_alike {s s' : State} (h : Alike s s') (c : Char) :
    Alike (settle s c) (settle s' c) := by
  unfold settle
  rw [h.modes]
  split
  · exact ⟨rfl, h.atLineStart, h.afterBackquote⟩
  · exact h

theorem act_alike {s s' : State} (h : Alike s s') (rest : Text) : act s' rest = act s rest := by
  have opens : Quote.opens? s'.past rest = Quote.opens? s.past rest := by
    unfold Quote.opens?
    rw [h.afterBackquote]
  unfold act rootMove braceMove endBlockMove stringMove
  rw [h.modes, h.atLineStart, opens]

theorem step_alike {s s' : State} (h : Alike s s') (c : Char) (rest : Text) :
    Alike (step s c rest).1 (step s' c rest).1 ∧ (step s' c rest).2 = (step s c rest).2 := by
  unfold step
  dsimp only
  rw [act_alike (settle_alike h c)]
  generalize hread : c :: rest.take (act (settle s c) (c :: rest)).more = read
  obtain ⟨front, last, hr⟩ := (List.eq_nil_or_concat read).resolve_left (by
    rw [← hread]
    exact List.cons_ne_nil _ _)
  rw [hr, List.concat_eq_append]
  exact ⟨alike_extend _ _ _ _ _ _ _, rfl⟩

/-- **The pass goes on alike over any text.** -/
theorem run_alike {s s' : State} (h : Alike s s') (text : Text) : Alike (run s text) (run s' text) := by
  fun_induction run s text generalizing s' with
  | case1 s =>
    rw [run]
    exact h
  | case2 s c rest next =>
    rename_i ih
    obtain ⟨alike, left⟩ := step_alike h c rest
    rw [run, left]
    exact ih alike

/-- **Whole lines that leave nothing open** are followed by a text as nothing is. -/
theorem alike_initial {a : Text} (ended : a.getLast? = some '\n')
    (root : (run .initial a).modes = .atRoot) : Alike .initial (run .initial a) := by
  have text := text_run .initial a
  obtain ⟨mark, past, hpast, hmark⟩ : ∃ mark past, (run .initial a).past = mark :: past ∧
      mark.char = '\n' := by
    have last : ((run .initial a).past.map (·.char)).head? = some '\n' := by
      rw [← List.getLast?_reverse]
      exact (congrArg List.getLast? text).trans ended
    cases hp : (run .initial a).past with
    | nil =>
      rw [hp] at last
      exact absurd last (by simp)
    | cons mark past =>
      rw [hp] at last
      exact ⟨mark, past, rfl, Option.some.inj last⟩
  refine ⟨root, ?_, ?_⟩
  · rw [hpast]
    show (mark.char == '\n') = true
    rw [hmark]
    rfl
  · rw [hpast]
    show (mark.char == '\x60') = false
    rw [hmark]
    rfl

/-! ## Blanks at the end of a line -/

/-- Blanks open and close nothing, and they are read one by one. They belong to a block only where one
is open. -/
theorem act_of_isBlank {c : Char} (hc : isBlank c = true) {rest : Text}
    (line : Text.blank (Text.firstLine (c :: rest)) = true) (s : State) :
    ∃ kind, act s (c :: rest) = ⟨kind, 0, s.modes, false⟩ ∧ (kind = .blockBody →
      s.modes.inBlock = true ∨ s.modes.top = .endBlock ∨ ∃ depth, s.modes.top = .braceBlock depth) := by
  have brace : c ≠ '\x7b' ∧ c ≠ '\x7d' := by
    refine ⟨?_, ?_⟩ <;> rintro rfl <;> exact absurd hc (by decide)
  have unopened : ¬ (s.past.atLineStart = true ∧
      Line.opensEndBlock (Text.firstLine (c :: rest)) = true) := by
    rw [Line.opensEndBlock_of_blank line]
    simp
  have unclosed : ¬ (s.past.atLineStart = true ∧
      Line.closesBlock (Text.firstLine (c :: rest)) = true) := by
    rw [Line.closesBlock_of_blank line]
    simp
  have quote : ∀ past, Quote.opens? past (c :: rest) = none := Quote.opens?_of_isBlank hc rest
  have string : ∃ kind, stringMove s (c :: rest) = ⟨kind, 0, s.modes, false⟩ ∧
      (kind = .blockBody → s.modes.inBlock = true) := by
    rw [stringMove, Quote.step_of_isBlank hc]
    refine ⟨_, rfl, fun block => ?_⟩
    by_contra outside
    rw [if_neg outside] at block
    exact absurd block (by decide)
  unfold act
  split
  · obtain ⟨kind, moves, inside⟩ := string
    exact ⟨kind, moves, fun block => .inl (inside block)⟩
  · obtain ⟨kind, moves, inside⟩ := string
    exact ⟨kind, moves, fun block => .inl (inside block)⟩
  · rename_i depth top
    rw [braceMove_cons, quote]
    dsimp only
    rw [if_neg brace.1, if_neg brace.2]
    exact ⟨_, rfl, fun _ => .inr (.inr ⟨depth, top⟩)⟩
  · rename_i top
    rw [endBlockMove, if_neg unclosed, quote]
    exact ⟨_, rfl, fun _ => .inr (.inl top)⟩
  · rw [rootMove_cons, if_neg unopened, quote]
    dsimp only
    rw [if_neg brace.1]
    split
    · exact ⟨_, rfl, fun block => absurd block (by decide)⟩
    · exact ⟨_, rfl, fun block => absurd block (by decide)⟩

/-- After a line feed only the modes matter. -/
theorem step_lf {s s' : State} (modes : s'.modes = s.modes) (t : Text) :
    Alike (step s '\n' t).1 (step s' '\n' t).1 ∧ (step s '\n' t).2 = t ∧ (step s' '\n' t).2 = t := by
  have blank : isBlank '\n' = true := by decide
  have settled : (settle s' '\n').modes = (settle s '\n').modes := by
    unfold settle
    rw [modes]
    split
    · rfl
    · exact modes
  obtain ⟨kind, acts, -⟩ := @act_of_isBlank '\n' blank t rfl (settle s '\n')
  obtain ⟨kind', acts', -⟩ := @act_of_isBlank '\n' blank t rfl (settle s' '\n')
  unfold step
  dsimp only
  rw [acts, acts', settled]
  exact ⟨alike_extend _ _ _ _ _ [] '\n', rfl, rfl⟩

/-- Blanks are read where they stand. -/
theorem run_blank (s : State) {w : Text} (blank : Text.blank w = true) (hw : '\n' ∉ w) (t : Text) :
    ∃ s', s'.modes = s.modes ∧ run s (w ++ '\n' :: t) = run s' ('\n' :: t) := by
  induction w generalizing s with
  | nil => exact ⟨s, rfl, rfl⟩
  | cons c w ih =>
    have hc : c ≠ '\n' := fun e => hw (e ▸ List.mem_cons_self)
    have rest : Text.blank w = true := Text.blank_of_suffix (List.suffix_cons c w) blank
    have settled : settle s c = s := by
      unfold settle
      rw [if_neg fun both => hc both.2]
    have line : Text.blank (Text.firstLine (c :: (w ++ '\n' :: t))) = true := by
      rw [← List.cons_append, Text.firstLine_append_lf hw]
      exact blank
    obtain ⟨kind, acts, -⟩ := act_of_isBlank (Text.isBlank_of_blank blank c List.mem_cons_self) line s
    obtain ⟨s', modes, goesOn⟩ := ih ⟨s.modes, ⟨kind, c⟩ :: s.past⟩ rest
      fun m => hw (List.mem_cons_of_mem _ m)
    refine ⟨s', modes, ?_⟩
    rw [List.cons_append, run_cons, step_eq_of_act settled acts]
    exact goesOn

/-- A line feed opens no block. -/
theorem modes_run_lf {s : State} (root : s.modes = .atRoot) : (run s ['\n']).modes = .atRoot := by
  have settled : settle s '\n' = s := by
    unfold settle
    rw [root]
    rfl
  obtain ⟨kind, acts, -⟩ := @act_of_isBlank '\n' (by decide) [] rfl s
  rw [run_cons, step_eq_of_act settled acts, run]
  exact root

/-- **Blanks at the end of a line change no move,** except that a move over the rest of the line
takes them along. -/
theorem act_append_of_blankLine {c : Char} {rest v : Text} (h : '\n' ∉ c :: rest)
    (blank : Text.blank (Text.firstLine v) = true) (s : State) :
    act s (c :: (rest ++ v)) = act s (c :: rest) ∨
      ∃ modes, act s (c :: rest) = lineMove (c :: rest) modes ∧
        act s (c :: (rest ++ v)) = lineMove (c :: (rest ++ v)) modes := by
  have line : Text.firstLine (c :: (rest ++ v)) = c :: rest ++ Text.firstLine v := by
    rw [← List.cons_append, Text.firstLine_append_of_notMem h]
  have whole : Text.firstLine (c :: rest) = c :: rest := Text.firstLine_of_notMem h
  have opens : Line.opensEndBlock (c :: rest ++ Text.firstLine v) = Line.opensEndBlock (c :: rest) :=
    Line.opensEndBlock_append blank _
  have closes : Line.closesBlock (c :: rest ++ Text.firstLine v) = Line.closesBlock (c :: rest) :=
    Line.closesBlock_append blank _
  -- What stands behind the line begins with a blank, which no quote holds.
  have first {d : Char} {t : Text} (hv : v = d :: t) : isBlank d = true := by
    by_cases hd : d = '\n'
    · rw [hd]
      decide
    · rw [hv, Text.firstLine_cons_of_ne hd] at blank
      exact Text.isBlank_of_blank blank d List.mem_cons_self
  have quote (past : Past) : Quote.opens? past (c :: (rest ++ v)) = Quote.opens? past (c :: rest) := by
    cases hv : v with
    | nil => rw [List.append_nil]
    | cons d t => exact Quote.opens?_append_cons (first hv) t past (c :: rest)
  have string : stringMove s (c :: (rest ++ v)) = stringMove s (c :: rest) := by
    cases hv : v with
    | nil => rw [List.append_nil]
    | cons d t => rw [stringMove, stringMove, ← List.cons_append, Quote.step_append_cons (first hv)]
  unfold act
  split
  · exact Or.inl string
  · exact Or.inl string
  · rw [braceMove_cons, braceMove_cons, quote]
    exact Or.inl rfl
  · rw [endBlockMove, endBlockMove, quote, line, whole, closes]
    split
    · exact Or.inr ⟨_, rfl, rfl⟩
    · exact Or.inl rfl
  · rw [rootMove_cons, rootMove_cons, quote, line, whole, opens]
    split
    · exact Or.inr ⟨_, rfl, rfl⟩
    · exact Or.inl rfl

/-- A line feed behind the last line changes no move at all. -/
theorem act_append_lf {c : Char} {rest : Text} (h : '\n' ∉ c :: rest) (s : State) (t : Text) :
    act s (c :: (rest ++ '\n' :: t)) = act s (c :: rest) := by
  have hrest : '\n' ∉ rest := fun m => h (List.mem_cons_of_mem _ m)
  rcases act_append_of_blankLine (v := '\n' :: t) h rfl s with same | ⟨modes, alone, behind⟩
  · exact same
  · rw [alone, behind, lineMove, lineMove, List.tail_cons, List.tail_cons,
      Text.firstLine_append_lf hrest, Text.firstLine_of_notMem hrest]

/-- **Blanks at the end of a line** make no difference behind it. -/
theorem run_respaced {s s' : State} (h : Alike s s') {w : Text} (blank : Text.blank w = true)
    (hw : '\n' ∉ w) (front back : Text) :
    Alike (run s (front ++ (w ++ '\n' :: back))) (run s' (front ++ '\n' :: back)) := by
  -- Both sides at the end of the line where only what they are inside of is known to be the same.
  have lineEnd : ∀ {p p' : State}, p'.modes = p.modes →
      Alike (run p ('\n' :: back)) (run p' ('\n' :: back)) := by
    intro p p' modes
    obtain ⟨alike, left, left'⟩ := step_lf modes back
    rw [run_cons, run_cons, left, left']
    exact run_alike alike back
  fun_induction run s front generalizing s' with
  | case1 s =>
    obtain ⟨p, modes, goesOn⟩ := run_blank s blank hw back
    rw [List.nil_append, List.nil_append, goesOn]
    exact lineEnd (h.modes.trans modes.symm)
  | case2 s c rest next =>
    rename_i ih
    obtain ⟨alike, left⟩ := step_alike h c rest
    rw [List.cons_append, List.cons_append, run_cons, run_cons]
    by_cases mem : '\n' ∈ c :: rest
    · rw [step_of_act (act_append mem _ _), step_of_act (act_append mem _ _), left]
      exact ih alike
    · rw [step_of_act (act_append_lf mem (settle s' c) back), left]
      have ends : Text.firstLine (w ++ '\n' :: back) = w := Text.firstLine_append_lf hw back
      rcases act_append_of_blankLine (v := w ++ '\n' :: back) mem (by rwa [ends]) (settle s c)
        with same | ⟨modes, alone, behind⟩
      · rw [step_of_act same]
        exact ih alike
      · have hrest : '\n' ∉ rest := fun m => mem (List.mem_cons_of_mem _ m)
        have stepped := step_lineMove (List.append_nil rest).symm (Text.firstLine_of_notMem hrest) alone
        have steppedBehind := step_lineMove (List.append_assoc rest w ('\n' :: back)).symm
          (by rw [Text.firstLine_append_of_notMem hrest, ends]) behind
        have inside : (step s' c rest).1.modes = modes := by
          rw [alike.modes, stepped]
        rw [show next.2 = [] from congrArg Prod.snd stepped, steppedBehind]
        exact lineEnd inside

end DoRunner.Blocks
