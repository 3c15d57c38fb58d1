import DoRunner.Proofs.Source.Continuation
import DoRunner.Proofs.Source.InertStrings

/-!
# Block comments within a statement

A block comment behind statement text hides itself and nothing else: what stands before it and what
stands behind it are read as they would be without it (`scanComments_interjected`). The pass is back
on the same line, past its start, and from there on it asks nothing of what lies further back than
the blank before the next character (`run_onLine`).

A star that follows the comment is the exception. The close of a block comment looks for one and
takes what is left of the line with it, whether the comment started its line or not: a factor is lost
behind a comment that would stay without it (`scanComments_interjected_product`).
-/

namespace DoRunner.Comments

/-! ## Steps outside everything -/

/-- **What a step outside everything does** if it reads no comment: it has found no directive that
would end the mode, and reads the opening of a string, a terminator, or one character of a
statement. -/
theorem rootStep_cases {s : State} {c : Char} {rest : Text}
    (kind : (rootStep s (c :: rest)).1.kind.isComment = false) :
    (s.past.atLineStart = true →
        Line.directive? (Text.firstLine (c :: rest)) ≠ some (leaving s.delimiter)) ∧
      (rootStep s (c :: rest)).2.1 = s.delimiter ∧
      ((∃ mode more, Quote.opens? s.past (c :: rest) = some (mode, more) ∧
          (rootStep s (c :: rest)).1 = ⟨literalKind s.delimiter, more, s.modes.push mode⟩) ∨
        s.delimiter = .explicit c ∧
          (rootStep s (c :: rest)).1 = ⟨.semicolonDelimiter, 0, s.modes⟩ ∨
        s.delimiter ≠ .explicit c ∧
          (rootStep s (c :: rest)).1 = ⟨textKind s.delimiter, 0, s.modes⟩) := by
  have does := rootStep_inv s (c :: rest)
  generalize (rootStep s (c :: rest)).1 = move, (rootStep s (c :: rest)).2.1 = delimiter
    at does kind
  cases does with
  | directive => exact absurd kind Bool.noConfusion
  | star => exact absurd kind Bool.noConfusion
  | statement unasked reads =>
    refine ⟨unasked, rfl, ?_⟩
    cases reads with
    | comment opens => exact absurd (kind.symm.trans (isComment_slashComment? opens)) Bool.false_ne_true
    | string opens => exact .inl ⟨_, _, opens, rfl⟩
    | terminator explicit here =>
      rw [← Option.some.inj here] at explicit
      exact .inr (.inl ⟨explicit, rfl⟩)
    | text goesOn => exact .inr (.inr ⟨fun explicit => goesOn c explicit rfl, rfl⟩)

/-! ## Texts without comments leave none open -/

/-- The stacks of a pass that has read no comment. -/
inductive Quiet : List Mode → Prop where
  /-- Outside everything. -/
  | root : Quiet []
  /-- In a plain string. -/
  | plainString : Quiet [.plainString]
  /-- In a compound string. -/
  | compoundString (outer : Nat) : Quiet [.compoundString (outer + 1)]

theorem quiet_opened {s : State} (root : s.modes = .atRoot) {past : Past} {rest : Text} {mode : Mode}
    {more : Nat} (h : Quote.opens? past rest = some (mode, more)) :
    Quiet (s.modes.push mode).entered := by
  rw [root]
  obtain ⟨rfl, -⟩ | ⟨rfl, -⟩ := Quote.opens?_cases h
  · exact .compoundString 0
  · exact .plainString

theorem quiet_rootStep {s : State} (root : s.modes = .atRoot) {c : Char} {rest : Text}
    (kind : (rootStep s (c :: rest)).1.kind.isComment = false) :
    Quiet (rootStep s (c :: rest)).1.modes.entered := by
  have still : Quiet s.modes.entered := by
    rw [root]
    exact .root
  obtain ⟨-, -, ⟨mode, more, opens, move⟩ | ⟨-, move⟩ | ⟨-, move⟩⟩ := rootStep_cases kind
  · rw [move]
    exact quiet_opened root opens
  · rw [move]
    exact still
  · rw [move]
    exact still

theorem quiet_settle {s : State} (quiet : Quiet s.modes.entered) (c : Char) :
    Quiet (settle s c).modes.entered := by
  obtain ⟨⟨entered⟩, delimiter, since, inMata, past⟩ := s
  unfold settle
  cases quiet with
  | root => exact .root
  | compoundString outer => exact .compoundString outer
  | plainString =>
    dsimp only [ModeStack.top, List.headD_cons]
    split
    · exact .root
    · exact .plainString

/-- A step that reads no comment opens none. -/
theorem quiet_act {s : State} (quiet : Quiet s.modes.entered) {c : Char} {rest : Text}
    (kind : (act s (c :: rest)).1.kind.isComment = false) :
    Quiet (act s (c :: rest)).1.modes.entered := by
  obtain ⟨⟨entered⟩, delimiter, since, inMata, past⟩ := s
  cases quiet with
  | root =>
    rw [act_of_atRoot rfl] at kind ⊢
    exact quiet_rootStep rfl kind
  | plainString =>
    show Quiet (Quote.step ⟨[.plainString]⟩ (c :: rest)).1.entered
    rcases Quote.entered_plainString [] (c :: rest) with inside | left
    · rw [inside]
      exact .plainString
    · rw [left]
      exact .root
  | compoundString outer =>
    show Quiet (Quote.step ⟨[.compoundString (outer + 1)]⟩ (c :: rest)).1.entered
    rcases Quote.entered_compoundString outer [] (c :: rest) with ⟨outer', inside⟩ | left
    · rw [inside]
      exact .compoundString outer'
    · rw [left]
      exact .root

theorem quiet_run {s : State} (quiet : Quiet s.modes.entered) {text : Text}
    (clean : Uncommented (run s text).past) : Quiet (run s text).modes.entered := by
  fun_induction run s text with
  | case1 s => exact quiet
  | case2 s c rest next ih =>
    refine ih (quiet_act (quiet_settle quiet c) ?_) clean
    exact kind_of_uncommented (by rwa [run_cons])

/-- The last mark is none of a continuation. -/
theorem head?_of_uncommented {later : Past} (clean : Uncommented later) (nonempty : later ≠ [])
    (earlier : Past) :
    (later ++ earlier).head?.map (·.kind) ≠ some .commentContinuation := by
  obtain ⟨mark, marks, rfl⟩ := List.exists_cons_of_ne_nil nonempty
  have kind := clean mark List.mem_cons_self
  intro continued
  have same : mark.kind = .commentContinuation := Option.some.inj continued
  rw [same] at kind
  exact Bool.noConfusion kind

theorem endOf_of_quiet {last : Option TokenKind} {entered : List Mode} (quiet : Quiet entered)
    (notContinued : last ≠ some .commentContinuation) : endOf last entered = .clean := by
  cases quiet <;> simp [endOf, notContinued]

/-! ## Within a block comment -/

/-- What is neither a slash nor a star is read as part of the comment. -/
theorem run_contents {s : State} {depth : Nat} (inside : s.modes.top = .blockComment depth)
    {c : Text} (noSlash : '/' ∉ c) (noStar : '*' ∉ c) (t : Text) :
    run s (c ++ t) = run { s with past := s.past.extend .commentBlock c } t := by
  induction c generalizing s with
  | nil => rfl
  | cons d c ih =>
    have slash : (d :: (c ++ t)).head? ≠ some '/' := by
      rintro ⟨⟩
      exact noSlash List.mem_cons_self
    have star : (d :: (c ++ t)).head? ≠ some '*' := by
      rintro ⟨⟩
      exact noStar List.mem_cons_self
    have settled : settle s d = s := by
      unfold settle
      rw [inside]
    have acts : act s (d :: (c ++ t)) = (⟨.commentBlock, 0, s.modes⟩, s.delimiter, s.inMata) := by
      unfold act
      rw [inside]
      exact congrArg (·, _) (blockMove_of_noSlash slash s star)
    rw [List.cons_append, run_cons, step_of_act settled acts]
    exact ih (s := { s with past := ⟨.commentBlock, d⟩ :: s.past }) inside
      (fun m => noSlash (List.mem_cons_of_mem d m)) fun m => noStar (List.mem_cons_of_mem d m)

/-- **The close of a block comment** takes what is left of the line along if a star follows. -/
theorem step_close {s : State} (inside : s.modes = ⟨[.blockComment 1]⟩) {b : Text}
    (oneLine : '\n' ∉ b) (spaced : b.head? = some ' ') :
    step s '*' ('/' :: b) =
      if starFollows b then
        ({ s with modes := .atRoot, past := s.past.extend .commentBlock ("*/".toList ++ b) }, [])
      else ({ s with modes := .atRoot, past := s.past.extend .commentBlock "*/".toList }, b) := by
  obtain ⟨modes, delimiter, since, inMata, past⟩ := s
  obtain rfl : modes = ⟨[.blockComment 1]⟩ := inside
  obtain ⟨tail, rfl⟩ := List.head?_eq_some_iff.mp spaced
  have acts : act ⟨⟨[.blockComment 1]⟩, delimiter, since, inMata, past⟩ ('*' :: '/' :: ' ' :: tail)
      = (⟨.commentBlock,
          if starFollows (' ' :: tail) then 1 + (Text.firstLine (' ' :: tail)).length else 1,
          .atRoot⟩, delimiter, inMata) := rfl
  rw [step_eq_of_act (t := ⟨⟨[.blockComment 1]⟩, delimiter, since, inMata, past⟩) rfl acts]
  by_cases star : starFollows (' ' :: tail) = true
  · rw [if_pos star, if_pos star, Text.firstLine_of_notMem oneLine, Nat.add_comm,
      List.take_succ_cons, List.take_length, List.drop_succ_cons, List.drop_length]
    rfl
  · rw [if_neg star, if_neg star]
    rfl

section Comment

variable {s : State} (root : s.modes = .atRoot) (newline : s.delimiter = .newline)
  (inside : s.past.atLineStart = false)

include root newline inside

theorem step_open (t : Text) :
    step s '/' ('*' :: t) = ({ s with
      modes := ⟨[.blockComment 1]⟩, past := s.past.extend .commentBlock "/*".toList }, t) := by
  obtain ⟨modes, delimiter, since, inMata, past⟩ := s
  obtain rfl : modes = .atRoot := root
  obtain rfl : delimiter = .newline := newline
  have acts : act ⟨.atRoot, .newline, since, inMata, past⟩ ('/' :: '*' :: t)
      = (⟨.commentBlock, 1, ⟨[.blockComment 1]⟩⟩, .newline, inMata) := by
    rw [act_of_atRoot rfl, rootStep_within rfl inside]
    rfl
  rw [step_eq_of_act (settle_of_atRoot rfl '/') acts]
  rfl

/-- **A block comment on a line that has begun** is read up to its close, and so is what is left of
the line if a star follows. -/
theorem run_comment {c b : Text} (noSlash : '/' ∉ c) (noStar : '*' ∉ c) (oneLine : '\n' ∉ b)
    (spaced : b.head? = some ' ') :
    run s ("/* ".toList ++ c ++ " */".toList ++ b) =
      if starFollows b then
        { s with past := s.past.extend .commentBlock ("/* ".toList ++ c ++ " */".toList ++ b) }
      else
        run { s with past := s.past.extend .commentBlock ("/* ".toList ++ c ++ " */".toList) } b := by
  let content := " ".toList ++ c ++ " ".toList
  have outer (d : Char) (solid : d ≠ ' ') (notIn : d ∉ c) : d ∉ content := by
    simp [content, solid, notIn]
  have split : "/* ".toList ++ c ++ " */".toList ++ b
      = '/' :: '*' :: (content ++ '*' :: '/' :: b) := by
    simp [content]
  have joined (t : Text) : ((s.past.extend .commentBlock "/*".toList).extend .commentBlock
      content).extend .commentBlock ("*/".toList ++ t)
      = s.past.extend .commentBlock ("/* ".toList ++ c ++ " */".toList ++ t) := by
    simp [content, Past.extend_eq]
  rw [split, run_cons, step_open root newline inside, @run_contents _ 1 rfl content
    (outer '/' (by decide) noSlash) (outer '*' (by decide) noStar), run_cons,
    step_close rfl oneLine spaced]
  by_cases star : starFollows b = true
  · rw [if_pos star, if_pos star, run]
    dsimp only
    rw [joined, split, ← root]
  · have closed := joined []
    rw [List.append_nil, List.append_nil] at closed
    rw [if_neg star, if_neg star]
    dsimp only
    rw [closed, ← root]

end Comment

/-! ## What is left of the text -/

/-- What the marks spell without comments. -/
def stripped (past : Past) : Text :=
  (past.reverse.filter fun mark => !mark.kind.isComment).map (·.char)

theorem stripped_append (later earlier : Past) :
    stripped (later ++ earlier) = stripped earlier ++ stripped later := by
  simp [stripped]

theorem stripped_of_uncommented {past : Past} (clean : Uncommented past) :
    stripped past = past.text := by
  rw [stripped, List.filter_eq_self.mpr, Past.text, List.map_reverse]
  intro mark m
  rw [clean mark (List.mem_reverse.mp m)]
  rfl

theorem stripped_extend (past : Past) (kind : TokenKind) (chars : Text) :
    stripped (past.extend kind chars)
      = stripped past ++ if kind.isComment then [] else chars := by
  rw [Past.extend_eq, stripped_append]
  cases hk : kind.isComment <;> simp [stripped, List.filter_map, Function.comp_def, hk]

/-- Behind a blank, a line that has begun goes on alike whatever the blank stands behind. -/
theorem run_spaced {s : State} (root : s.modes = .atRoot) (newline : s.delimiter = .newline)
    (inside : s.past.atLineStart = false) {tail : Text} (oneLine : '\n' ∉ ' ' :: tail) :
    OnLine s.past (run { State.initial .newline with past := [⟨.plainText, ' '⟩] } tail)
      (run s (' ' :: tail)) := by
  have begun := run_trailing newline (Or.inl (congrArg ModeStack.entered root)) inside
    (w := [' ']) (by decide) (by decide) tail
  rw [List.singleton_append] at begun
  have blank : OnLine s.past { State.initial .newline with past := [⟨.plainText, ' '⟩] }
      { s with past := s.past.extend (trailingKind s.modes) [' '] } :=
    ⟨root, rfl, newline, rfl, by rw [root]; rfl⟩
  rw [begun]
  exact run_onLine blank fun m => oneLine (List.mem_cons_of_mem ' ' m)

/-! ## Interjected comments -/

section Interjected

variable {a b c : Text} (line : Continuable a)
  (clean : Uncommented (run (.initial .newline) (a ++ b)).past)

/-- The marks of the text before the comment. -/
def plainPast (a : Text) : Past := Past.extend [] .plainText a

include line

theorem plainPast_inside : (plainPast a).atLineStart = false := by
  refine Past.atLineStart_extend ?_ line.oneLine
  rintro rfl
  exact absurd line.ink (by decide)

include clean

/-- The line is begun with the comment as without it. -/
theorem run_commented (noSlash : '/' ∉ c) (noStar : '*' ∉ c) (oneLine : '\n' ∉ b)
    (spaced : b.head? = some ' ') :
    ∃ inMata, run (.initial .newline) (a ++ ("/* ".toList ++ c ++ " */".toList ++ b)) =
      if starFollows b then
        { State.initial .newline with
          inMata, past := (plainPast a).extend .commentBlock ("/* ".toList ++ c ++ " */".toList ++ b) }
      else
        run { State.initial .newline with
          inMata, past := (plainPast a).extend .commentBlock ("/* ".toList ++ c ++ " */".toList) } b := by
  let comment := "/* ".toList ++ c ++ " */".toList
  have split : a ++ (comment ++ b) = (a ++ "/".toList) ++ ("* ".toList ++ c ++ " */".toList ++ b) := by
    simp [comment]
  -- a line with a slash is no directive
  have slash : '/' ∈ Text.firstLine (a ++ (comment ++ b)) := by
    rw [split, Text.firstLine_append_of_notMem (by simp [line.oneLine])]
    simp
  have noDirective : Line.directive? (Text.firstLine (a ++ (comment ++ b))) ≠ some .explicit := by
    rw [Line.directive?_of_mem slash (by decide) (by decide)]
    simp
  refine ⟨Line.opensMata (Text.firstLine (a ++ (comment ++ b))), ?_⟩
  rw [run_opening line clean noDirective,
    run_comment rfl rfl (plainPast_inside line) noSlash noStar oneLine spaced]
  rfl

/-- **What stands behind the comment is read as it would be without it.** -/
theorem run_interjected (noSlash : '/' ∉ c) (noStar : '*' ∉ c) (oneLine : '\n' ∉ b)
    (spaced : b.head? = some ' ') (noFactor : starFollows b = false) :
    let final := run (.initial .newline) (a ++ ("/* ".toList ++ c ++ " */".toList ++ b))
    final.delimiter = .newline ∧ Quiet final.modes.entered ∧
      ∃ later, final.past = later ++ (plainPast a).extend .commentBlock ("/* ".toList ++ c ++ " */".toList) ∧
        Uncommented later ∧ Past.text later = b := by
  obtain ⟨inMata, commented⟩ := run_commented (c := c) line clean noSlash noStar oneLine spaced
  have plain := run_opening line clean (unled_of_uncommented clean).noDirective
  have quiet := quiet_run .root clean
  obtain ⟨tail, rfl⟩ := List.head?_eq_some_iff.mp spaced
  have inside : ((plainPast a).extend .commentBlock ("/* ".toList ++ c ++ " */".toList)).atLineStart
      = false := by
    rw [Past.extend_append]
    rfl
  -- both lines go on behind the blank that `b` starts with
  have alone := run_spaced (s := { State.initial .newline with
    inMata := Line.opensMata (Text.firstLine (a ++ ' ' :: tail))
    past := plainPast a }) rfl rfl (plainPast_inside line) oneLine
  have behind := run_spaced (s := { State.initial .newline with
    inMata, past := (plainPast a).extend .commentBlock ("/* ".toList ++ c ++ " */".toList) }) rfl rfl
    inside oneLine
  rw [noFactor, if_neg Bool.false_ne_true] at commented
  rw [plain] at quiet clean
  rw [plainPast] at alone
  rw [alone.modes] at quiet
  rw [alone.past] at clean
  dsimp only
  rw [commented]
  refine ⟨behind.newline', by rwa [behind.modes], _, behind.past, fun mark m => ?_, text_run _ _⟩
  exact clean mark (List.mem_append_left _ m)

end Interjected

/-- **A closed block comment behind statement text hides only itself,** except where a star follows
it: then it hides what is left of its line as well. In both cases nothing is open at the end, and
lines go on to end statements. -/
theorem scanComments_interjected {a b c : Text} (line : Continuable a) (noSlash : '/' ∉ c)
    (noStar : '*' ∉ c) (oneLine : '\n' ∉ b) (spaced : b.head? = some ' ')
    (noComment : ∀ token ∈ (scanComments (a ++ b) .newline).tokens, token.kind.isComment = false) :
    let scan := scanComments (a ++ ("/* ".toList ++ c ++ " */".toList ++ b)) .newline
    scan.endState = .clean ∧ scan.finalMode = .newline ∧
      scan.strippedText = if starFollows b then a else a ++ b := by
  have clean : Uncommented (run (.initial .newline) (a ++ b)).past :=
    fun mark m => uncommented_of_tokens noComment mark (List.mem_reverse.mpr m)
  have kept : stripped (plainPast a) = a := stripped_extend [] .plainText a
  let final := run (.initial .newline) (a ++ ("/* ".toList ++ c ++ " */".toList ++ b))
  show endOf (final.past.head?.map (·.kind)) final.modes.entered = .clean ∧
    final.delimiter = .newline ∧ stripped final.past = _
  by_cases star : starFollows b = true
  · obtain ⟨inMata, commented⟩ := run_commented line clean noSlash noStar oneLine spaced
    rw [if_pos star] at commented ⊢
    dsimp only [final]
    rw [commented]
    refine ⟨endOf_of_quiet .root ?_, rfl, ?_⟩
    · obtain ⟨mark, latest, kind⟩ := Past.head?_extend (plainPast a) .commentBlock '/'
        ("* ".toList ++ c ++ " */".toList ++ b)
      show ((plainPast a).extend .commentBlock _).head?.map (·.kind) ≠ _
      rw [show "/* ".toList ++ c ++ " */".toList ++ b
        = '/' :: ("* ".toList ++ c ++ " */".toList ++ b) from rfl, Option.mem_def.mp latest,
        Option.map_some, kind]
      simp
    · rw [stripped_extend, kept]
      exact List.append_nil a
  · have noFactor := Bool.eq_false_iff.mpr star
    obtain ⟨newline, quiet, later, past, uncommented, rfl⟩ :=
      run_interjected line clean noSlash noStar oneLine spaced noFactor
    rw [if_neg star]
    refine ⟨endOf_of_quiet quiet ?_, newline, ?_⟩
    · rw [past]
      refine head?_of_uncommented uncommented ?_ _
      rintro rfl
      exact absurd spaced (by decide)
    · rw [past, stripped_append, stripped_extend, kept, stripped_of_uncommented uncommented]
      exact congrArg (· ++ _) (List.append_nil a)

/-- A note within a sum. -/
theorem scanComments_interjected_sum :
    let scan := scanComments ("gen y = x ".toList ++
      ("/* ".toList ++ "note".toList ++ " */".toList ++ " + z * 2".toList)) .newline
    scan.endState = .clean ∧ scan.finalMode = .newline ∧
      scan.strippedText = "gen y = x  + z * 2".toList :=
  scanComments_interjected (a := "gen y = x ".toList) (b := " + z * 2".toList) (c := "note".toList)
    ⟨by decide, by decide, by decide, by decide⟩ (by decide) (by decide) (by decide) (by decide)
    (by decide +kernel)

/-- **A product does not survive a note before its star.** Without the note the line holds no
comment, with it the second factor is part of one. -/
theorem scanComments_interjected_product :
    Continuable "gen y = x ".toList ∧
      (∀ token ∈ (scanComments ("gen y = x ".toList ++ " * 2".toList) .newline).tokens,
        token.kind.isComment = false) ∧
      (scanComments ("gen y = x ".toList ++
        ("/* ".toList ++ "note".toList ++ " */".toList ++ " * 2".toList)) .newline).strippedText
        = "gen y = x ".toList :=
  ⟨⟨by decide, by decide, by decide, by decide⟩, by decide +kernel, by decide +kernel⟩

end DoRunner.Comments
