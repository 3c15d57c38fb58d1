import DoRunner.Proofs.Source.Line
import DoRunner.Proofs.Source.Moves
import DoRunner.Source.Blocks

/-!
# How far a scanner looks ahead

What a step does depends on what is ahead of it, but seldom on much of it. Openers and closers are
at most three characters long and hold no line feed, and what is asked of a line as a whole stops at
its end. So all that a scanner looks at stands on the line it is on, and more text behind a line
feed makes no difference.

There is one exception. After a block comment the comment pass looks over blanks for a star, and
line feeds are blanks. More text makes a difference there when nothing but blanks follows the
comment (`starFollows_append`).
-/

namespace DoRunner

/-! ## Strings -/

namespace Quote

theorem opens?_eq (past : Past) (rest : Text) :
    opens? past rest =
      if Text.startsWith "\x60\"".toList rest then some (.compoundString 1, 1)
      else if Text.startsWith "\"".toList rest then
        if past.afterBackquote then none else some (.plainString, 0)
      else none := by
  unfold opens?
  split
  · rfl
  · rfl
  · rename_i h₁ h₂
    rw [Text.startsWith_eq_false h₁, Text.startsWith_eq_false h₂]
    rfl

theorem closesPlain_eq (rest : Text) :
    closesPlain rest
      = (!Text.startsWith "\"'".toList rest && Text.startsWith "\"".toList rest) := by
  unfold closesPlain
  split
  · rfl
  · rename_i t h
    rw [@Text.startsWith_eq_false "\"'".toList _
      fun u e => h u (List.cons.inj e).2]
    rfl
  · rename_i h₁ h₂
    rw [Text.startsWith_eq_false h₁, Text.startsWith_eq_false h₂]
    rfl

theorem step_eq (modes : ModeStack) (rest : Text) :
    step modes rest =
      match modes.top with
      | .compoundString _ =>
        if Text.startsWith "\x60\"".toList rest then (modes.push (.compoundString 1), 1)
        else if Text.startsWith "\"'".toList rest then (modes.pop, 1)
        else (modes, 0)
      | _ => (if closesPlain rest then modes.pop else modes, 0) := by
  unfold step
  cases modes.top with
  | compoundString depth =>
    dsimp only
    split
    · rfl
    · rfl
    · rename_i h₁ h₂
      rw [Text.startsWith_eq_false h₁, Text.startsWith_eq_false h₂]
      rfl
  | _ => rfl

section Append

variable {a : Text} (h : '\n' ∈ a) (b : Text)

include h

theorem opens?_append (past : Past) : opens? past (a ++ b) = opens? past a := by
  rw [opens?_eq, opens?_eq, Text.startsWith_append_of_mem (by decide) h,
    Text.startsWith_append_of_mem (by decide) h]

theorem step_append (modes : ModeStack) : step modes (a ++ b) = step modes a := by
  rw [step_eq, step_eq, closesPlain_eq, closesPlain_eq,
    Text.startsWith_append_of_mem (by decide) h, Text.startsWith_append_of_mem (by decide) h,
    Text.startsWith_append_of_mem (by decide) h]

end Append

/-! No quote holds a blank. -/

section Blank

variable {c : Char} (hc : isBlank c = true) (rest : Text)

include hc

theorem opens?_append_cons (past : Past) (t : Text) :
    opens? past (t ++ c :: rest) = opens? past t := by
  rw [opens?_eq, opens?_eq, Text.startsWith_append_cons (Text.notMem_of_isBlank hc (by decide)),
    Text.startsWith_append_cons (Text.notMem_of_isBlank hc (by decide))]

theorem step_append_cons (modes : ModeStack) (t : Text) :
    step modes (t ++ c :: rest) = step modes t := by
  rw [step_eq, step_eq, closesPlain_eq, closesPlain_eq,
    Text.startsWith_append_cons (Text.notMem_of_isBlank hc (by decide)),
    Text.startsWith_append_cons (Text.notMem_of_isBlank hc (by decide)),
    Text.startsWith_append_cons (Text.notMem_of_isBlank hc (by decide))]

theorem opens?_of_isBlank (past : Past) : opens? past (c :: rest) = none := by
  rw [opens?_eq, show "\x60\"".toList = '\x60' :: "\"".toList from rfl,
    show "\"".toList = '"' :: [] from rfl, Text.startsWith_of_isBlank (by decide) hc,
    Text.startsWith_of_isBlank (by decide) hc]
  rfl

/-- Within a string, blanks are read one by one. -/
theorem step_of_isBlank (modes : ModeStack) : step modes (c :: rest) = (modes, 0) := by
  have closes : closesPlain (c :: rest) = false := by
    rw [closesPlain_eq, show "\"".toList = '"' :: [] from rfl,
      Text.startsWith_of_isBlank (by decide) hc, Bool.and_false]
  rw [step_eq, show "\x60\"".toList = '\x60' :: "\"".toList from rfl,
    show "\"'".toList = '"' :: "'".toList from rfl, Text.startsWith_of_isBlank (by decide) hc,
    Text.startsWith_of_isBlank (by decide) hc, closes]
  cases modes.top <;> rfl

end Blank

/-! A quote is read on the line where it begins. -/

section More

variable {c : Char} {rest : Text}

theorem more_opens? {past : Past} {mode : Mode} {more : Nat}
    (h : opens? past (c :: rest) = some (mode, more)) : more ≤ (Text.firstLine rest).length := by
  rcases opens?_cases h with ⟨-, rfl, t, opens⟩ | ⟨-, rfl, -⟩
  · rw [(List.cons.inj opens).2, Text.firstLine_cons_of_ne (by decide)]
    exact Nat.le_add_left 1 _
  · exact Nat.zero_le _

theorem more_step (modes : ModeStack) :
    (step modes (c :: rest)).2 ≤ (Text.firstLine rest).length := by
  rw [step_eq]
  split
  · split
    · rename_i found
      exact Text.length_le_firstLine (by decide) found
    · split
      · rename_i found
        exact Text.length_le_firstLine (by decide) found
      · exact Nat.zero_le _
  · exact Nat.zero_le _

end More

end Quote

/-! ## Comments -/

namespace Comments

theorem slashComment?_eq (s : State) (lineCommentAllowed : Past → Bool) (rest : Text) :
    slashComment? s lineCommentAllowed rest =
      if Text.startsWith "///".toList rest then
        if s.past.afterBlank then some ⟨.commentContinuation, 2, s.modes.push .continuation⟩
        else if lineCommentAllowed s.past then some ⟨.commentLine, 1, s.modes.push .lineComment⟩
        else none
      else if Text.startsWith "//".toList rest then
        if lineCommentAllowed s.past then some ⟨.commentLine, 1, s.modes.push .lineComment⟩ else none
      else if Text.startsWith "/*".toList rest then
        some ⟨.commentBlock, 1, s.modes.push (.blockComment 1)⟩
      else none := by
  unfold slashComment?
  split
  · rfl
  · rename_i t h
    rw [@Text.startsWith_eq_false "///".toList _
      fun u e => h u (List.cons.inj (List.cons.inj e).2).2]
    rfl
  · rfl
  · rename_i h₁ h₂ h₃
    rw [Text.startsWith_eq_false h₁, Text.startsWith_eq_false h₂, Text.startsWith_eq_false h₃]
    rfl

theorem blockMove_eq (s : State) (rest : Text) :
    blockMove s rest =
      if Text.startsWith "/*".toList rest then ⟨.commentBlock, 1, s.modes.push (.blockComment 1)⟩
      else if Text.startsWith "*/*".toList rest then ⟨.commentBlock, 2, s.modes⟩
      else if Text.startsWith "*/".toList rest then
        ⟨.commentBlock,
          if starFollows (rest.drop 2) then 1 + (Text.firstLine (rest.drop 2)).length else 1,
          s.modes.pop⟩
      else ⟨.commentBlock, 0, s.modes⟩ := by
  unfold blockMove
  split
  · rfl
  · rfl
  · rename_i t h
    rw [@Text.startsWith_eq_false "*/*".toList _
      fun u e => h u (List.cons.inj (List.cons.inj e).2).2]
    rfl
  · rename_i h₁ h₂ h₃
    rw [Text.startsWith_eq_false h₁, Text.startsWith_eq_false h₂, Text.startsWith_eq_false h₃]
    rfl

theorem starCommentMove_eq (s : State) (rest : Text) :
    starCommentMove s rest =
      if Text.startsWith "///".toList rest then
        ⟨.commentLine, (Text.firstLine rest.tail).length + 1, s.modes.replace .continuation⟩
      else if Text.startsWith "//".toList rest then
        if !s.delimiter.isExplicit && s.past.afterBlank then
          ⟨.commentLine, 1, s.modes.replace .lineComment⟩
        else ⟨.commentLine, 0, s.modes⟩
      else if Text.startsWith "/*".toList rest then
        ⟨.commentBlock, 1, s.modes.push (.blockComment 1)⟩
      else ⟨.commentLine, 0, s.modes⟩ := by
  unfold starCommentMove
  split
  · rfl
  · rename_i t h
    rw [@Text.startsWith_eq_false "///".toList _
      fun u e => h u (List.cons.inj (List.cons.inj e).2).2]
    rfl
  · rfl
  · rename_i h₁ h₂ h₃
    rw [Text.startsWith_eq_false h₁, Text.startsWith_eq_false h₂, Text.startsWith_eq_false h₃]
    rfl

theorem continuationMove_eq (s : State) (rest : Text) :
    continuationMove s rest =
      if rest.head? = some '\n' then ⟨.commentContinuation, 0, s.modes.pop⟩
      else if Text.startsWith "//".toList rest then
        ⟨.commentLine, (Text.firstLine rest.tail).length, s.modes.pop⟩
      else ⟨.commentContinuation, 0, s.modes⟩ := by
  unfold continuationMove
  split
  · rfl
  · rfl
  · rename_i h₁ h₂
    have hne : rest.head? ≠ some '\n' := by
      intro he
      obtain ⟨t, ht⟩ := List.head?_eq_some_iff.mp he
      exact h₁ t ht
    rw [if_neg hne, Text.startsWith_eq_false h₂]
    rfl

theorem lineCommentMove_eq (s : State) (rest : Text) :
    lineCommentMove s rest =
      if rest.head? = some '\n' then
        ⟨if s.delimiter.isExplicit then .namespaceBody else .plainText, 0, s.modes.pop⟩
      else ⟨.commentLine, 0, s.modes⟩ := by
  unfold lineCommentMove
  split
  · rfl
  · rename_i h
    have hne : rest.head? ≠ some '\n' := by
      intro he
      obtain ⟨t, ht⟩ := List.head?_eq_some_iff.mp he
      exact h t ht
    rw [if_neg hne]

/-! ## More text -/

theorem dropWhile_append_cons {p : Char → Bool} {c : Char} (h : p c = false) (s t : Text) :
    (s ++ c :: t).dropWhile p = s.dropWhile p ++ c :: t := by
  induction s with
  | nil => rw [List.nil_append, List.dropWhile_cons, h]; rfl
  | cons d s ih =>
    rw [List.cons_append, List.dropWhile_cons, List.dropWhile_cons, ih]
    split <;> rfl

theorem takeWhile_append_cons {p : Char → Bool} {c : Char} (h : p c = false) (s t : Text) :
    (s ++ c :: t).takeWhile p = s.takeWhile p := by
  induction s with
  | nil => rw [List.nil_append, List.takeWhile_cons, h]; rfl
  | cons d s ih => rw [List.cons_append, List.takeWhile_cons, List.takeWhile_cons, ih]

/-- A star that opens a comment stands before any character that it cannot stand behind. -/
theorem starOpener?_append_cons {d : Char} (space : (d == ' ' || d == '\t') = false) (star : d ≠ '*')
    (line t : Text) : starOpener? (line ++ d :: t) = starOpener? line := by
  unfold starOpener?
  rw [dropWhile_append_cons space, takeWhile_append_cons space]
  cases line.dropWhile fun c => c == ' ' || c == '\t' with
  | nil => simp [star]
  | cons c rest =>
    by_cases hc : c = '*'
    · subst hc
      rfl
    · simp [hc]

/-- A star comment opens on the first line, or not at all. -/
theorem starOpener?_line (line t : Text) :
    starOpener? (line ++ '\n' :: t) = starOpener? line :=
  starOpener?_append_cons (by decide) (by decide) line t

section Append

variable {a : Text} (h : '\n' ∈ a) (b : Text)

include h

theorem starOpener?_append : starOpener? (a ++ b) = starOpener? a := by
  obtain ⟨rest, ha⟩ := Text.exists_firstLine h
  rw [ha, List.append_assoc, List.cons_append, starOpener?_line, starOpener?_line]

theorem slashComment?_append (s : State) (lineCommentAllowed : Past → Bool) :
    slashComment? s lineCommentAllowed (a ++ b) = slashComment? s lineCommentAllowed a := by
  rw [slashComment?_eq, slashComment?_eq, Text.startsWith_append_of_mem (by decide) h,
    Text.startsWith_append_of_mem (by decide) h, Text.startsWith_append_of_mem (by decide) h]

theorem plainMove_append (s : State) : plainMove s (a ++ b) = plainMove s a := by
  rw [plainMove, plainMove, slashComment?_append h, Quote.opens?_append h]

theorem head?_append : (a ++ b).head? = a.head? := by
  cases a with
  | nil => exact absurd h List.not_mem_nil
  | cons c a => rfl

theorem explicitMove_append (s : State) (terminator : Char) :
    explicitMove s terminator (a ++ b) = explicitMove s terminator a := by
  rw [explicitMove, explicitMove, slashComment?_append h, Quote.opens?_append h, head?_append h]

theorem directiveMove_append (s : State) (first : a.head? ≠ some '\n') :
    directiveMove s (a ++ b) = directiveMove s a := by
  rw [directiveMove, directiveMove, Text.firstLine_tail_append h first]

/-- A line that is a directive is not empty. -/
theorem head?_of_directive? {directive : Line.Directive}
    (found : Line.directive? (Text.firstLine a) = some directive) : a.head? ≠ some '\n' := by
  intro he
  obtain ⟨t, rfl⟩ := List.head?_eq_some_iff.mp he
  rw [Text.firstLine_lf, Line.directive?_of_blank rfl] at found
  exact absurd found (by simp)

/-- **Outside comments, only the current line counts.** -/
theorem rootStep_append (s : State) : rootStep s (a ++ b) = rootStep s a := by
  unfold rootStep
  rw [Text.firstLine_append h, starOpener?_append h, plainMove_append h]
  cases s.delimiter with
  | newline =>
    dsimp only
    split
    · split
      · rename_i found
        rw [directiveMove_append h b s (head?_of_directive? h found)]
      · rfl
    · rfl
  | explicit terminator =>
    dsimp only
    rw [explicitMove_append h]
    split
    · split
      · rename_i found
        rw [directiveMove_append h b s (head?_of_directive? h found)]
      · rfl
    · rfl

theorem starCommentMove_append (s : State) : starCommentMove s (a ++ b) = starCommentMove s a := by
  rw [starCommentMove_eq, starCommentMove_eq, Text.startsWith_append_of_mem (by decide) h,
    Text.startsWith_append_of_mem (by decide) h, Text.startsWith_append_of_mem (by decide) h]
  split
  · rename_i found
    have first : a.head? ≠ some '\n' := by
      rw [Text.head?_of_startsWith found]
      decide
    rw [Text.firstLine_tail_append h first]
  · rfl

theorem continuationMove_append (s : State) :
    continuationMove s (a ++ b) = continuationMove s a := by
  rw [continuationMove_eq, continuationMove_eq, head?_append h,
    Text.startsWith_append_of_mem (by decide) h]
  split
  · rfl
  · rename_i first
    rw [Text.firstLine_tail_append h first]

theorem lineCommentMove_append (s : State) :
    lineCommentMove s (a ++ b) = lineCommentMove s a := by
  rw [lineCommentMove_eq, lineCommentMove_eq, head?_append h]

theorem stringMove_append (s : State) : stringMove s (a ++ b) = stringMove s a := by
  rw [stringMove, stringMove, Quote.step_append h]

end Append

/-! ## After a block comment -/

theorem starFollows_eq (rest : Text) :
    starFollows rest = (rest.head?.any isBlank &&
      (Text.startsWith "*".toList (Text.trimStart rest) &&
        !Text.startsWith "*/".toList (Text.trimStart rest))) := by
  unfold starFollows
  generalize Text.trimStart rest = t
  congr 1
  split
  · rfl
  · rename_i t h
    rw [@Text.startsWith_eq_false "*/".toList _ fun u e => h u (List.cons.inj e).2]
    rfl
  · rename_i h₁ h₂
    rw [Text.startsWith_eq_false h₂]
    rfl

theorem starFollows_of_blank {rest : Text} (h : Text.blank rest = true) :
    starFollows rest = false := by
  rw [starFollows_eq, Text.trimStart_of_blank h]
  exact Bool.and_false _

/-- **More text makes no difference to what follows a block comment,** unless it is all that
follows it. -/
theorem starFollows_append {a : Text} (whole : Text.Whole a) (ink : Text.blank a = false)
    (b : Text) : starFollows (a ++ b) = starFollows a := by
  have left : Text.trimStart a ≠ [] := by
    intro he
    have all := List.dropWhile_eq_nil_iff.mp he
    rw [Text.blank, List.all_eq_true.mpr all] at ink
    exact absurd ink (by decide)
  have mem : '\n' ∈ a := whole.mem (by rintro rfl; exact absurd ink (by decide))
  have ahead : '\n' ∈ Text.trimStart a :=
    (whole.of_suffix (List.dropWhile_suffix isBlank)).mem left
  rw [starFollows_eq, starFollows_eq, head?_append mem, Text.trimStart_append_of_not_blank ink,
    Text.startsWith_append_of_mem (by decide) ahead,
    Text.startsWith_append_of_mem (by decide) ahead]

/-- A block comment closes where `a` begins, nothing but blanks follows it in `a`, and a star that
closes nothing follows them in `b`. -/
structure Spills (a b : Text) : Prop where
  /-- A block comment closes. -/
  closes : Text.startsWith "*/".toList a = true
  /-- Nothing but blanks follows it. -/
  blank : Text.blank (a.drop 2) = true
  /-- A star follows them. -/
  star : starFollows (a.drop 2 ++ b) = true

theorem blockMove_append {a b : Text} (whole : Text.Whole a) (h : a ≠ []) (apart : ¬ Spills a b)
    (s : State) : blockMove s (a ++ b) = blockMove s a := by
  have mem := whole.mem h
  rw [blockMove_eq, blockMove_eq, Text.startsWith_append_of_mem (by decide) mem,
    Text.startsWith_append_of_mem (by decide) mem, Text.startsWith_append_of_mem (by decide) mem]
  by_cases closes : Text.startsWith "*/".toList a = true
  · have two : (a ++ b).drop 2 = a.drop 2 ++ b := by
      obtain ⟨t, rfl⟩ := Text.startsWith_iff.mp closes
      rfl
    have after : '\n' ∈ a.drop 2 := by
      obtain ⟨t, rfl⟩ := Text.startsWith_iff.mp closes
      rcases List.mem_append.mp mem with m | m
      · exact absurd m (by decide)
      · exact m
    have same : starFollows (a.drop 2 ++ b) = starFollows (a.drop 2) := by
      by_cases hb : Text.blank (a.drop 2) = true
      · rw [starFollows_of_blank hb, Bool.eq_false_iff]
        exact fun star => apart ⟨closes, hb, star⟩
      · exact starFollows_append (whole.of_suffix (List.drop_suffix 2 a))
          (Bool.eq_false_iff.mpr hb) b
    rw [two, same, Text.firstLine_append after]
  · rw [if_neg closes, if_neg closes]

/-- **A step looks no further than its line,** unless it closes a block comment that a star seems to
follow. -/
theorem act_append {a b : Text} (whole : Text.Whole a) (h : a ≠ []) {s : State}
    (apart : ∀ depth, s.modes.top = .blockComment depth → ¬ Spills a b) :
    act s (a ++ b) = act s a := by
  have mem := whole.mem h
  unfold act
  cases htop : s.modes.top with
  | blockComment depth => exact congrArg (·, _) (blockMove_append whole h (apart depth htop) s)
  | starComment => exact congrArg (·, _) (starCommentMove_append mem b s)
  | lineComment => exact congrArg (·, _) (lineCommentMove_append mem b s)
  | continuation => exact congrArg (·, _) (continuationMove_append mem b s)
  | plainString => exact congrArg (·, _) (stringMove_append mem b s)
  | compoundString depth => exact congrArg (·, _) (stringMove_append mem b s)
  | _ => exact rootStep_append mem b s

/-! ## How far a step reads -/

section More

variable {c : Char} {rest : Text}

theorem more_slashComment? {s : State} {lineCommentAllowed : Past → Bool} {move : Move}
    (h : slashComment? s lineCommentAllowed (c :: rest) = some move) :
    move.more ≤ (Text.firstLine rest).length := by
  obtain ⟨t, opens, rfl⟩ | ⟨t, opens, rfl⟩ | ⟨t, opens, rfl⟩ := slashComment?_cases h
  · rw [(List.cons.inj opens).2, Text.firstLine_cons_of_ne (by decide),
      Text.firstLine_cons_of_ne (by decide)]
    exact Nat.le_add_left 2 _
  · rw [(List.cons.inj opens).2, Text.firstLine_cons_of_ne (by decide)]
    exact Nat.le_add_left 1 _
  · rw [(List.cons.inj opens).2, Text.firstLine_cons_of_ne (by decide)]
    exact Nat.le_add_left 1 _

theorem StatementMove.more_le {s : State} {move : Move} (reads : StatementMove s (c :: rest) move) :
    move.more ≤ (Text.firstLine rest).length := by
  cases reads with
  | comment opens => exact more_slashComment? opens
  | string opens => exact Quote.more_opens? opens
  | terminator => exact Nat.zero_le _
  | text => exact Nat.zero_le _

theorem more_starOpener? {more : Nat} (h : starOpener? (c :: rest) = some more) :
    more ≤ (Text.firstLine rest).length := by
  unfold starOpener? at h
  split at h
  · rename_i t ht
    rw [← Option.some.inj h]
    have whole := List.takeWhile_append_dropWhile (p := fun c => c == ' ' || c == '\t') (l := c :: rest)
    rw [ht] at whole
    have spaces : '\n' ∉ (c :: rest).takeWhile fun c => c == ' ' || c == '\t' :=
      fun m => absurd (List.mem_takeWhile_imp m) (by decide)
    generalize (c :: rest).takeWhile (fun c => c == ' ' || c == '\t') = w at whole spaces
    cases w with
    | nil => exact Nat.zero_le _
    | cons d w =>
      have tail : w ++ '*' :: t = rest := (List.cons.inj whole).2
      rw [← tail, Text.firstLine_append_of_notMem fun m => spaces (List.mem_cons_of_mem _ m),
        Text.firstLine_cons_of_ne (by decide), List.length_append, List.length_cons,
        List.length_cons]
      omega
  · exact absurd h (by simp)

theorem more_rootStep (s : State) :
    (rootStep s (c :: rest)).1.more ≤ (Text.firstLine rest).length := by
  have does := rootStep_inv s (c :: rest)
  generalize (rootStep s (c :: rest)).1 = move, (rootStep s (c :: rest)).2.1 = delimiter at does
  cases does with
  | directive => exact Nat.le_refl _
  | star _ opens => exact more_starOpener? opens
  | statement _ reads => exact reads.more_le

theorem more_blockMove (s : State) :
    (blockMove s (c :: rest)).more ≤ (Text.firstLine rest).length := by
  rw [blockMove_eq]
  split
  · rename_i found
    exact Text.length_le_firstLine (by decide) found
  · split
    · rename_i found
      exact Text.length_le_firstLine (by decide) found
    · split
      · rename_i found
        obtain ⟨t, ht⟩ := Text.startsWith_iff.mp found
        have tail : rest = '/' :: t := (List.cons.inj ht).2
        have after : (c :: rest).drop 2 = t := by rw [tail]; rfl
        rw [after, tail, Text.firstLine_cons_of_ne (by decide), List.length_cons]
        dsimp only
        split <;> omega
      · exact Nat.zero_le _

theorem more_starCommentMove (s : State) :
    (starCommentMove s (c :: rest)).more ≤ (Text.firstLine rest).length ∨
      (c ≠ '\n' ∧ (starCommentMove s (c :: rest)).more = (Text.firstLine rest).length + 1 ∧
        (starCommentMove s (c :: rest)).modes.top = .continuation) := by
  rw [starCommentMove_eq]
  split
  · rename_i found
    right
    refine ⟨?_, rfl, ?_⟩
    · rintro rfl
      have slash : some '\n' = some '/' := Text.head?_of_startsWith found
      exact absurd slash (by decide)
    · dsimp only [ModeStack.replace]
      split <;> rfl
  · left
    split
    · rename_i found
      split
      · exact Text.length_le_firstLine (by decide) found
      · exact Nat.zero_le _
    · split
      · rename_i found
        exact Text.length_le_firstLine (by decide) found
      · exact Nat.zero_le _

theorem more_continuationMove (s : State) :
    (continuationMove s (c :: rest)).more ≤ (Text.firstLine rest).length := by
  rw [continuationMove_eq]
  split
  · exact Nat.zero_le _
  · split
    · exact Nat.le_refl _
    · exact Nat.zero_le _

theorem more_lineCommentMove (s : State) : (lineCommentMove s (c :: rest)).more = 0 := by
  rw [lineCommentMove_eq]
  split <;> rfl

/-- **A step reads no further than its line.** One step reads the line feed as well: where a star
comment is handed over to the next line. -/
theorem more_act (s : State) :
    (act s (c :: rest)).1.more ≤ (Text.firstLine rest).length ∨
      (c ≠ '\n' ∧ (act s (c :: rest)).1.more = (Text.firstLine rest).length + 1 ∧
        (act s (c :: rest)).1.modes.top = .continuation) := by
  unfold act
  cases s.modes.top with
  | blockComment depth => exact Or.inl (more_blockMove s)
  | starComment => exact more_starCommentMove s
  | lineComment => exact Or.inl (by rw [more_lineCommentMove]; exact Nat.zero_le _)
  | continuation => exact Or.inl (more_continuationMove s)
  | plainString => exact Or.inl (Quote.more_step s.modes)
  | compoundString depth => exact Or.inl (Quote.more_step s.modes)
  | _ => exact Or.inl (more_rootStep s)

theorem more_act_le {s : State} (h : '\n' ∈ c :: rest) :
    (act s (c :: rest)).1.more ≤ rest.length := by
  rcases @more_act c rest s with within | ⟨hc, beyond, -⟩
  · exact within.trans (Text.length_firstLine_le rest)
  · rw [beyond]
    rcases List.mem_cons.mp h with he | h
    · exact absurd he.symm hc
    · exact Text.length_firstLine_lt h

end More

end Comments

end DoRunner
