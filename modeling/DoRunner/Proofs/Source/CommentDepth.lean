import DoRunner.Proofs.Source.TrailingBlanks

/-!
# How much is owed to an open comment

Where a text ends inside a block comment, the pass reports how many levels deep. That many closers
are owed (`scanComments_closers`): on lines of their own behind the text, each of them closes one
level, the last one leaves nothing open, and until then nothing but the comment has gone on.

A line feed sets a closer apart from whatever the text ends in, so that the two make no `*/*` and
no `/*` together. It also keeps the closer out of sight. Of all that is asked at the end of the text,
only whether a star follows a comment is asked beyond the line, and the star of a closer is none.
-/

namespace DoRunner

/-- So many comment closers, each on a line of its own behind a text. -/
def closers (n : Nat) : Text := (List.replicate n "\n*/".toList).flatten

theorem closers_succ (n : Nat) : closers (n + 1) = '\n' :: '*' :: '/' :: closers n := by
  rw [closers, List.replicate_succ, List.flatten_cons]
  rfl

namespace Comments

/-! ## Behind the text -/

/-- A line feed behind a text is read after it, unless the text leaves a continuation to the line
feed. -/
theorem run_append_lf {s : State} {text : Text} (top : (run s text).modes.top ≠ .continuation) :
    run s (text ++ ['\n']) = run (run s text) ['\n'] := by
  obtain ⟨s', left, goesOn, behind⟩ := run_append_blank (w := ['\n']) rfl s text
  rw [behind]
  cases goesOn with
  | apart => rfl
  | @along front back kind since split comment within entered =>
    have nothing : front = [] := List.length_eq_zero_iff.mp (Nat.le_zero.mp (within.resolve_right top))
    subst nothing
    have same : since = (run s text).explicitSince := by
      rcases entered with same | ⟨before, after⟩
      · exact same
      · rw [before, after, List.append_nil]
    rw [same, ← show ['\n'] = left from split]
    rfl

/-- Within a block comment, a line feed belongs to it. -/
theorem run_lf_of_blockComment {s : State} {depth : Nat} (top : s.modes.top = .blockComment depth)
    (rest : Text) :
    run s ('\n' :: rest) = run { s with past := ⟨.commentBlock, '\n'⟩ :: s.past } rest := by
  have settled : settle s '\n' = s := by
    unfold settle
    rw [top]
  have acts : act s ('\n' :: rest) = (⟨.commentBlock, 0, s.modes⟩, s.delimiter, s.inMata) := by
    unfold act
    rw [top]
    dsimp only
    rw [blockMove_of_isBlank (by decide)]
  rw [run_cons, step_of_act settled acts]

/-- **Closers behind a text** that ends in a block comment are read after it. -/
theorem run_append_closers {s : State} (stack : CommentStack s.modes.entered) {text : Text} {depth : Nat}
    (top : (run s text).modes.top = .blockComment depth) (n : Nat) :
    run s (text ++ closers n) = run (run s text) (closers n) := by
  cases n with
  | zero =>
    show run s (text ++ []) = run _ []
    rw [List.append_nil, run]
  | succ n =>
    have whole : Text.Whole (text ++ ['\n']) := Text.whole_of_getLast? List.getLast?_concat
    have lf : run s (text ++ ['\n']) = run (run s text) ['\n'] :=
      run_append_lf (by rw [top]; simp)
    have goesOn : run s (text ++ ['\n'] ++ '*' :: '/' :: closers n)
        = run (run s (text ++ ['\n'])) ('*' :: '/' :: closers n) := by
      rcases run_append stack whole ('*' :: '/' :: closers n) with same | spilled
      · exact same
      · -- the star of the closer would have to be one that closes nothing
        obtain ⟨-, -, rest, -, -, -, spills, -⟩ := spilled
        have blank : Text.blank rest = true := spills.blank
        have star : starFollows (rest ++ '*' :: '/' :: closers n) = true := spills.star
        rw [starFollows_eq, Text.trimStart_append_blank blank] at star
        exact absurd (Bool.and_eq_true_iff.mp star).2 Bool.false_ne_true
    calc run s (text ++ closers (n + 1))
        = run (run (run s text) ['\n']) ('*' :: '/' :: closers n) := by
          rw [closers_succ, List.append_cons, goesOn, lf]
      _ = run (run s text) (closers (n + 1)) := by
          rw [closers_succ, run_lf_of_blockComment top, run_lf_of_blockComment top, run]

/-- One closer takes one level away. -/
theorem run_closer {s : State} {depth : Nat} (top : s.modes.top = .blockComment depth) (n : Nat) :
    run s (closers (n + 1))
      = run { s with modes := s.modes.pop, past := s.past.extend .commentBlock "\n*/".toList }
          (closers n) := by
  let t : State := { s with past := ⟨.commentBlock, '\n'⟩ :: s.past }
  have settled : settle t '*' = t := by
    unfold settle
    rw [show t.modes.top = .blockComment depth from top]
  have moves : blockMove t ('*' :: '/' :: closers n) = ⟨.commentBlock, 1, s.modes.pop⟩ := by
    cases n with
    | zero => rfl
    | succ n =>
      rw [closers_succ]
      rfl
  have acts : act t ('*' :: '/' :: closers n)
      = (⟨.commentBlock, 1, s.modes.pop⟩, t.delimiter, t.inMata) := by
    unfold act
    rw [show t.modes.top = .blockComment depth from top]
    exact congrArg (·, _) moves
  rw [closers_succ, run_lf_of_blockComment top, run_cons, step_eq_of_act settled acts]
  rfl

/-- **As many closers as the comment is deep** leave it, and fewer leave it less deep. All of them
are part of the comment. -/
theorem run_closers {s : State} {outer : Nat} {under : List Mode}
    (entered : s.modes.entered = .blockComment (outer + 1) :: under) {n : Nat} (owed : n ≤ outer + 1) :
    run s (closers n) = { s with
      modes := ⟨if n < outer + 1 then .blockComment (outer + 1 - n) :: under else under⟩
      past := s.past.extend .commentBlock (closers n) } := by
  obtain ⟨⟨_⟩, delimiter, since, inMata, past⟩ := s
  obtain rfl := entered
  induction n generalizing outer past with
  | zero =>
    rw [if_pos (Nat.succ_pos outer)]
    exact run.eq_1 _
  | succ n ih =>
    have chars : closers (n + 1) = "\n*/".toList ++ closers n := closers_succ n
    rw [run_closer rfl n, chars, Past.extend_append]
    cases outer with
    | zero =>
      obtain rfl : n = 0 := by omega
      rw [if_neg (by omega)]
      exact run.eq_1 _
    | succ outer =>
      have popped : ModeStack.pop ⟨.blockComment (outer + 1 + 1) :: under⟩
          = ⟨.blockComment (outer + 1) :: under⟩ := by
        rw [ModeStack.pop]
        dsimp only
        rw [ModeStack.shallower, if_pos (by omega)]
        rfl
      rw [popped]
      have owed' : n ≤ outer + 1 := by omega
      rw [ih owed' (past.extend .commentBlock "\n*/".toList)]
      have less : n + 1 < outer + 1 + 1 ↔ n < outer + 1 := by omega
      simp only [less, Nat.add_sub_add_right]

/-- A text that ends in a block comment ends in one alone, or in one within a star comment. -/
theorem entered_of_endOf {entered : List Mode} (stack : CommentStack entered)
    {last : Option TokenKind} {depth : Nat} (ends : endOf last entered = .unterminatedBlockComment depth) :
    ∃ outer under, depth = outer + 1 ∧ entered = .blockComment (outer + 1) :: under ∧
      (under = [] ∨ under = [.starComment]) := by
  have root : endOf last [] ≠ .unterminatedBlockComment depth := by
    rw [endOf]
    split <;> simp
  cases stack with
  | blockComment outer => exact ⟨outer, [], by simpa [endOf] using ends.symm, rfl, .inl rfl⟩
  | starBlock outer => exact ⟨outer, [.starComment], by simpa [endOf] using ends.symm, rfl, .inr rfl⟩
  | continuation => exact absurd ends (by simp [endOf])
  | _ => exact absurd ends root

end Comments

/-- **The reported depth is what is owed.** The comment that a text ends in is at least one level
deep. Of as many closers behind the text, or fewer, each takes one level away, and nothing else about
the text changes. -/
theorem scanComments_closers {text : Text} {mode : DelimiterMode} {depth : Nat}
    (ends : (scanComments text mode).endState = .unterminatedBlockComment depth) :
    1 ≤ depth ∧ ∀ n ≤ depth,
      let alone := scanComments text mode
      let closed := scanComments (text ++ closers n) mode
      closed.endState = (if n < depth then .unterminatedBlockComment (depth - n) else .clean) ∧
      closed.strippedText = alone.strippedText ∧ closed.finalMode = alone.finalMode ∧
      closed.explicitSince = alone.explicitSince := by
  let s := Comments.run (.initial mode) text
  have stack : Comments.CommentStack s.modes.entered := Comments.run_commentStack .root text
  obtain ⟨outer, under, rfl, entered, below⟩ := Comments.entered_of_endOf stack ends
  have top : s.modes.top = .blockComment (outer + 1) := by
    rw [ModeStack.top, entered]
    rfl
  refine ⟨Nat.succ_pos outer, fun n owed => ?_⟩
  have reached : Comments.run (.initial mode) (text ++ closers n) = _ :=
    (Comments.run_append_closers .root top n).trans (Comments.run_closers entered owed)
  dsimp only
  unfold scanComments
  dsimp only
  rw [reached]
  refine ⟨?_, ?_, rfl, rfl⟩
  · by_cases less : n < outer + 1
    · rw [if_pos less, if_pos less]
      rfl
    · -- the last mark is that of the last closer
      obtain rfl : n = outer + 1 := by omega
      rw [if_neg less, if_neg less, closers_succ]
      obtain ⟨mark, last, kind⟩ := Past.head?_extend s.past .commentBlock '\n' ('*' :: '/' :: closers outer)
      rw [Option.mem_def.mp last, Option.map_some, kind]
      rcases below with rfl | rfl
      · rfl
      · rfl
  · unfold CommentScan.strippedText
    dsimp only
    rw [Past.reverse_extend, List.filter_append]
    have gone : ((closers n).map (Mark.mk .commentBlock)).filter (fun mark => !mark.kind.isComment) = [] := by
      rw [List.filter_eq_nil_iff]
      intro mark m
      obtain ⟨c, -, rfl⟩ := List.mem_map.mp m
      simp [TokenKind.isComment]
    rw [gone, List.append_nil]

/-- A block comment within a star comment, which `*/*` does not close. -/
theorem scanComments_closers_starBlock :
    let text := "#delimit ;\n* note /* a */* b /* c".toList
    (scanComments text .newline).endState = .unterminatedBlockComment 2 ∧
      (scanComments (text ++ closers 1) .newline).endState = .unterminatedBlockComment 1 ∧
      (scanComments (text ++ closers 2) .newline).endState = .clean ∧
      (scanComments (text ++ closers 2) .newline).finalMode = .semicolon := by
  have ends : (scanComments "#delimit ;\n* note /* a */* b /* c".toList .newline).endState
      = .unterminatedBlockComment 2 := by decide +kernel
  obtain ⟨-, owed⟩ := scanComments_closers ends
  refine ⟨ends, (owed 1 (by decide)).1, (owed 2 (by decide)).1, ?_⟩
  exact (owed 2 (by decide)).2.2.1.trans (by decide +kernel)

end DoRunner
