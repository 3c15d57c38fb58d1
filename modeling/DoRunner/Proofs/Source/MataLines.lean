import DoRunner.Proofs.Source.Pieces
import DoRunner.Proofs.Source.Words

/-!
# The comment pass in a mata region

Between a line that is a bare `mata` and a line that begins with `end`, a star at the start of a
line multiplies and opens no comment. The comment pass has a flag for this, which it sets and clears
where it is outside everything at the start of a line.

Once the flag is set it stays set, and the pass is in no star comment, from step to step
(`step_attentive`) and so over every stretch in which no line that is read as code begins with `end`
and none is a directive (`exists_attentive`). A line of such a stretch that starts with a star is
code up to that star (`line_attentive`).
-/

namespace DoRunner

open CommentScan (statementChars)

/-! ## Words that start a line -/

namespace Line

/-- A line that begins with one word does not begin with another. -/
theorem after?_trimStart_of_head {a b : Char} (other : a ≠ b) {word word' line rest : Text}
    (found : Text.after? (a :: word) (Text.trimStart line) = some rest) :
    Text.after? (b :: word') (Text.trimStart line) = none := by
  rw [Text.after?_eq_some_iff.mp found]
  simp [Text.after?, other.symm]

/-- A bare `mata` ends no block. -/
theorem closesBlock_of_opensMata {line : Text} (h : opensMata line = true) :
    closesBlock line = false := by
  unfold opensMata at h
  split at h
  · exact absurd h Bool.false_ne_true
  · rename_i rest found
    unfold closesBlock
    rw [show "end".toList = 'e' :: "nd".toList from rfl,
      after?_trimStart_of_head (b := 'e') (by decide) found]

/-- A line that ends a block is no directive. -/
theorem directive?_of_closesBlock {line : Text} (h : closesBlock line = true) :
    directive? line = none := by
  unfold closesBlock at h
  split at h
  · exact absurd h Bool.false_ne_true
  · rename_i rest found
    unfold directive? afterDelimit?
    rw [show "#d".toList = '#' :: "d".toList from rfl,
      after?_trimStart_of_head (a := 'e') (by decide) found]
    rfl

end Line

/-- What a line starts behind ends in a line feed. -/
theorem Past.lf_mem_of_atLineStart {marks : List Mark} (nonempty : marks ≠ []) {past : Past}
    (start : Past.atLineStart (marks.reverse ++ past) = true) : '\n' ∈ marks.map (·.char) := by
  obtain ⟨front, mark, rfl⟩ := List.eq_nil_or_concat marks |>.resolve_left nonempty
  rw [List.concat_eq_append, List.reverse_append] at start
  have lf : mark.char = '\n' := by simpa [Past.atLineStart] using start
  rw [List.concat_eq_append, List.map_append, ← lf]
  exact List.mem_append_right _ List.mem_cons_self

namespace Comments

/-- What opens a star comment: spaces and tabs with a star behind them. -/
theorem line_of_starOpener? {t : Text} (star : starOpener? t ≠ none) :
    ∃ w more, t = w ++ '*' :: more ∧ w.all isIndent = true ∧
      Text.firstLine t = w ++ '*' :: Text.firstLine more := by
  have split := List.takeWhile_append_dropWhile (p := isIndent) (l := t)
  have indent : (t.takeWhile isIndent).all isIndent = true :=
    List.all_eq_true.mpr fun c m => List.mem_takeWhile_imp m
  have oneLine : '\n' ∉ t.takeWhile isIndent :=
    fun m => absurd (List.mem_takeWhile_imp m) (by decide)
  rw [starOpener?_eq] at star
  split at star
  · rename_i more found
    rw [found] at split
    refine ⟨_, more, split.symm, indent, ?_⟩
    conv_lhs => rw [← split]
    rw [Text.firstLine_append_of_notMem oneLine, Text.firstLine_cons_of_ne (by decide)]
  · exact absurd rfl star

theorem starOpener?_of_indent {w : Text} (indent : w.all isIndent = true) (more : Text) :
    starOpener? (w ++ '*' :: more) ≠ none := by
  rw [starOpener?_eq, dropWhile_append_cons (by decide), List.dropWhile_eq_nil_iff.mpr
    (List.all_eq_true.mp indent)]
  simp

/-- A line that begins with a star ends no block. -/
theorem closesBlock_of_starOpener? {t : Text} (star : starOpener? t ≠ none) :
    Line.closesBlock (Text.firstLine t) = false := by
  obtain ⟨w, more, -, indent, line⟩ := line_of_starOpener? star
  have blank : Text.blank w = true :=
    List.all_eq_true.mpr fun c m => isBlank_of_isIndent (List.all_eq_true.mp indent c m)
  unfold Line.closesBlock
  rw [line, Text.trimStart_append_blank blank]
  rfl

/-- Nor is it a directive. -/
theorem directive?_of_starOpener? {t : Text} (star : starOpener? t ≠ none) :
    Line.directive? (Text.firstLine t) = none := by
  obtain ⟨w, more, -, -, line⟩ := line_of_starOpener? star
  rw [line]
  exact Line.directive?_of_mem (List.mem_append_right w List.mem_cons_self) (by decide) (by decide)

/-! ## The comment pass in a mata region -/

/-- What the pass may be inside of in a mata region. Only block comments go on over lines. -/
inductive Aside (lineStart : Bool) : List Mode → Prop where
  /-- Outside everything. -/
  | root : Aside lineStart []
  /-- In a block comment. -/
  | blockComment (outer : Nat) : Aside lineStart [.blockComment (outer + 1)]
  /-- In a line comment. -/
  | lineComment (inside : lineStart = false) : Aside lineStart [.lineComment]
  /-- In a continuation comment. -/
  | continuation (inside : lineStart = false) : Aside lineStart [.continuation]

/-- The pass knows that it is in a mata region. -/
structure Attentive (s : State) : Prop where
  /-- Lines end statements. -/
  newline : s.delimiter = .newline
  /-- The lines belong to the region. -/
  inMata : s.inMata = true
  /-- No star comment is open. -/
  stack : Aside s.past.atLineStart s.modes.entered

section Step

variable {s : State} (attentive : Attentive s) {c : Char} {rest : Text} (noQuote : '"' ∉ c :: rest)
  (notEnd : s.modes = .atRoot → s.past.atLineStart = true →
    Line.closesBlock (Text.firstLine (c :: rest)) = false)
  (noDirective : s.modes = .atRoot → s.past.atLineStart = true →
    Line.directive? (Text.firstLine (c :: rest)) ≠ some .explicit)

include attentive

theorem settle_attentive : settle s c = s := by
  obtain ⟨⟨entered⟩, delimiter, since, inMata, past⟩ := s
  unfold settle
  cases attentive.stack <;> rfl

include notEnd noDirective in
/-- Outside everything, neither the region ends nor a star comment opens. -/
theorem rootStep_attentive (root : s.modes = .atRoot) :
    rootStep s (c :: rest) = (plainMove s (c :: rest), .newline, true) := by
  unfold rootStep
  rw [attentive.newline]
  dsimp only
  split
  · rename_i start
    have goesOn : mataAfter s.inMata (Text.firstLine (c :: rest)) = true := by
      rw [mataAfter, attentive.inMata, if_pos rfl, notEnd root start]
      rfl
    rw [if_neg (noDirective root start), goesOn]
    rfl
  · rw [attentive.inMata]

include noQuote notEnd noDirective

/-- **A step in a mata region stays in it,** unless it reads its last line or a directive. -/
theorem step_attentive : Attentive (step s c rest).1 := by
  have settled := settle_attentive attentive (c := c)
  have behind := past_step s c rest
  unfold marksRead at behind
  rw [settled] at behind
  -- what a step has to show of its move
  have of_act {move : Move} (acts : act s (c :: rest) = (move, .newline, true))
      (stack : Aside (Past.atLineStart (((c :: rest.take move.more).map
        (Mark.mk move.kind)).reverse ++ s.past)) move.modes.entered) :
      Attentive (step s c rest).1 := by
    rw [acts] at behind
    refine ⟨?_, ?_, ?_⟩
    · show (act (settle s c) (c :: rest)).2.1 = _
      rw [settled, acts]
    · show (act (settle s c) (c :: rest)).2.2 = _
      rw [settled, acts]
    · rw [behind]
      show Aside _ (act (settle s c) (c :: rest)).1.modes.entered
      rw [settled, acts]
      exact stack
  obtain ⟨newline, inMata, stack⟩ := attentive
  obtain ⟨⟨entered⟩, delimiter, since, flag, past⟩ := s
  obtain rfl : delimiter = .newline := newline
  obtain rfl : flag = true := inMata
  -- a character that ends no line
  have within (kind : TokenKind) (noLf : (c :: rest).head? ≠ some '\n') :
      Past.atLineStart (⟨kind, c⟩ :: past) = false := by
    simpa [Past.atLineStart] using noLf
  cases stack with
  | root =>
    have acts := act_of_atRoot (s := ⟨⟨[]⟩, .newline, since, true, past⟩) rfl (c :: rest)
    rw [rootStep_attentive ⟨rfl, rfl, .root⟩ notEnd noDirective rfl] at acts
    refine of_act acts ?_
    cases slash : slashComment? ⟨⟨[]⟩, .newline, since, true, past⟩ Past.afterBlank (c :: rest) with
    | some move =>
      have plain : plainMove ⟨⟨[]⟩, .newline, since, true, past⟩ (c :: rest) = move := by
        rw [plainMove, slash]
      rw [plain]
      rcases slashComment?_cases slash with ⟨t, text, rfl⟩ | ⟨t, text, rfl⟩ | ⟨t, text, rfl⟩
      · obtain ⟨rfl, rfl⟩ := List.cons.inj text
        exact .continuation rfl
      · obtain ⟨rfl, rfl⟩ := List.cons.inj text
        exact .lineComment rfl
      · exact .blockComment 0
    | none =>
      rw [plainMove, slash, Quote.opens?_of_notMem noQuote]
      exact .root
  | blockComment outer =>
    refine of_act rfl ?_
    rcases @entered_blockMove ⟨⟨_⟩, .newline, since, true, past⟩ outer [] rfl (c :: rest) with
      ⟨outer', inside⟩ | left
    · rw [inside]
      exact .blockComment outer'
    · rw [left]
      exact .root
  | lineComment inside =>
    refine of_act rfl ?_
    rw [lineCommentMove_eq]
    split
    · exact .root
    · rename_i noLf
      exact .lineComment (within _ noLf)
  | continuation inside =>
    refine of_act rfl ?_
    rw [continuationMove_eq]
    split
    · exact .root
    · rename_i noLf
      split
      · exact .root
      · exact .continuation (within _ noLf)

end Step

/-- A character up to such a star is read as code. -/
theorem step_indent {s : State} (attentive : Attentive s) (root : s.modes = .atRoot) {c : Char}
    {t : Text} (star : starOpener? (c :: t) ≠ none) (plain : isIndent c = true ∨ c = '*') :
    step s c t = ({ s with past := ⟨.plainText, c⟩ :: s.past }, t) := by
  have move : plainMove s (c :: t) = ⟨.plainText, 0, s.modes⟩ := by
    rcases plain with indent | rfl
    · exact plainMove_of_isBlank (isBlank_of_isIndent indent) s t
    · rfl
  have noDirective : Line.directive? (Text.firstLine (c :: t)) ≠ some .explicit := by
    rw [directive?_of_starOpener? star]
    simp
  refine step_of_act (settle_attentive attentive) ?_
  rw [act_of_atRoot root, rootStep_attentive attentive (fun _ _ => closesBlock_of_starOpener? star)
    (fun _ _ => noDirective) root, move, attentive.newline, attentive.inMata]

/-- Spaces, tabs and a star behind them are read as code. -/
theorem run_indent {s : State} (attentive : Attentive s) (root : s.modes = .atRoot) {w : Text}
    (indent : w.all isIndent = true) (more : Text) :
    ∃ s', run s (w ++ '*' :: more) = run s' more ∧
      s'.past = ((w ++ ['*']).map (Mark.mk .plainText)).reverse ++ s.past := by
  induction w generalizing s with
  | nil =>
    have one := step_indent attentive root (starOpener?_of_indent indent more) (.inr rfl)
    exact ⟨_, by rw [List.nil_append, run_cons, one], rfl⟩
  | cons c w ih =>
    obtain ⟨first, others⟩ := Bool.and_eq_true_iff.mp indent
    have star : starOpener? (c :: (w ++ '*' :: more)) ≠ none := starOpener?_of_indent indent more
    have one := step_indent attentive root star (.inl first)
    obtain ⟨s', runs, past⟩ := @ih { s with past := ⟨.plainText, c⟩ :: s.past }
      ⟨attentive.newline, attentive.inMata, by rw [root]; exact .root⟩ root others
    refine ⟨s', by rw [List.cons_append, run_cons, one]; exact runs, ?_⟩
    rw [past, List.cons_append, List.map_cons, List.reverse_cons, List.append_assoc]
    rfl

/-- **A line of a mata region that starts with a star is code** up to the star, unless it starts
within a block comment. -/
theorem line_attentive {s : State} (attentive : Attentive s) {left : Text} {marks : List Mark}
    (past : (run s left).past = marks.reverse ++ s.past) (start : s.past.atLineStart = true)
    (star : starOpener? (marks.map (·.char)) ≠ none) :
    marks.head?.map (·.kind) = some .commentBlock ∨ ∃ indent more, indent.all isIndent = true ∧
      marks = (indent ++ ['*']).map (Mark.mk .plainText) ++ more := by
  have stack := attentive.stack
  rw [start] at stack
  cases hs : s.modes.entered with
  | nil =>
    have root : s.modes = .atRoot := congrArg ModeStack.mk hs
    obtain ⟨w, more, text, indent, -⟩ := line_of_starOpener? star
    rw [chars_of_run past] at text
    subst text
    obtain ⟨s', runs, read⟩ := run_indent attentive root indent more
    obtain ⟨later, further, -⟩ := exists_past_run s' more
    rw [runs, further, read, ← List.append_assoc, List.append_cancel_right_eq] at past
    refine .inr ⟨w, later.reverse, indent, ?_⟩
    rw [← List.reverse_reverse marks, ← past, List.reverse_append, List.reverse_reverse]
  | cons mode entered =>
    rw [hs] at stack
    obtain ⟨depth, top⟩ : ∃ depth, s.modes.top = .blockComment depth := by
      cases stack with
      | blockComment outer => exact ⟨outer + 1, by rw [ModeStack.top, hs]; rfl⟩
      | lineComment inside => exact Bool.noConfusion inside
      | continuation inside => exact Bool.noConfusion inside
    cases marks with
    | nil => exact absurd rfl star
    | cons mark marks =>
      obtain ⟨c, rest, -, -, kind, -⟩ := run_first past
      refine .inl (congrArg some (kind.symm.trans ?_))
      rw [settle_attentive attentive, act, top]
      show (blockMove s (c :: rest)).kind = _
      unfold blockMove
      split <;> rfl

section Root

variable {s : State} (attentive : Attentive s) (root : s.modes = .atRoot) {c : Char} {rest : Text}

include attentive root

/-- The line that ends a region is read as code. -/
theorem plain_of_closesBlock (noQuote : '"' ∉ c :: rest)
    (closes : Line.closesBlock (Text.firstLine (c :: rest)) = true) :
    (act s (c :: rest)).1.kind = .plainText := by
  have noStar : starOpener? (c :: rest) = none := by
    by_contra star
    exact Bool.false_ne_true ((closesBlock_of_starOpener? star).symm.trans closes)
  have noSlash : (c :: rest).head? ≠ some '/' := by
    rintro ⟨⟩
    rw [Text.firstLine_cons_of_ne (by decide)] at closes
    exact Bool.noConfusion closes
  have noDirective : Line.directive? (Text.firstLine (c :: rest)) ≠ some .explicit := by
    rw [Line.directive?_of_closesBlock closes]
    simp
  rw [act_of_atRoot root, rootStep_of_unled attentive.newline fun _ => ⟨noDirective, noStar⟩,
    plainMove, slashComment?_of_noSlash noSlash, Quote.opens?_of_notMem noQuote]

/-- A directive is read as a comment. -/
theorem kind_of_directive (start : s.past.atLineStart = true)
    (directive : Line.directive? (Text.firstLine (c :: rest)) = some .explicit) :
    (act s (c :: rest)).1.kind = .commentLine := by
  rw [act_of_atRoot root, rootStep, attentive.newline]
  dsimp only
  rw [if_pos start, if_pos directive]
  rfl

end Root

/-- A step in a mata region reads no further than its line. -/
theorem more_attentive {s : State} (attentive : Attentive s) (c : Char) (rest : Text) :
    (act s (c :: rest)).1.more ≤ (Text.firstLine rest).length := by
  obtain ⟨⟨entered⟩, delimiter, since, inMata, past⟩ := s
  cases attentive.stack with
  | root => exact more_rootStep _
  | blockComment outer => exact more_blockMove _
  | lineComment inside => exact (more_lineCommentMove _).le.trans (Nat.zero_le _)
  | continuation inside => exact more_continuationMove _

theorem commentStack_attentive {s : State} (attentive : Attentive s) :
    CommentStack s.modes.entered := by
  obtain ⟨⟨entered⟩, delimiter, since, inMata, past⟩ := s
  cases attentive.stack with
  | root => exact .root
  | blockComment outer => exact .blockComment outer
  | lineComment inside => exact .lineComment
  | continuation inside => exact .continuation

/-- Only the last of what it reads may be a line feed. -/
theorem notMem_lf_attentive {s : State} (attentive : Attentive s) {c : Char} {rest x y : Text}
    (read : c :: rest.take (act s (c :: rest)).1.more = x ++ y) (nonempty : y ≠ []) : '\n' ∉ x := by
  cases x with
  | nil => exact List.not_mem_nil
  | cons d x =>
    obtain ⟨rfl, others⟩ := List.cons.inj read
    intro m
    rcases List.mem_cons.mp m with rfl | m
    · -- a line feed is read alone
      obtain ⟨kind, modes, stepped, -⟩ :=
        step_lf (commentStack_attentive attentive) attentive.newline rest
      have alone := congrArg (·.1.past.length) stepped
      dsimp only at alone
      rw [past_step, marksRead, settle_attentive attentive, others] at alone
      have none : y.length = 0 := by
        simp at alone
        omega
      exact nonempty (List.length_eq_zero_iff.mp none)
    · have within : '\n' ∈ rest.take (act s (c :: rest)).1.more := by
        rw [others]
        exact List.mem_append_left y m
      have onLine := (List.take_prefix_take_left (more_attentive attentive c rest)).subset within
      rw [Text.take_firstLine] at onLine
      exact Text.notMem_firstLine rest onLine

/-! ## Lines of the source -/

/-- A line of the source starts within `stretch`, which stands between `past` and `after`: before
the line is `front`, its first mark is `mark`, and `rest` comes behind that. -/
structure StartsLine (past : Past) (stretch after : List Mark) (front : Past) (mark : Mark)
    (rest : List Mark) : Prop where
  /-- A line starts there. -/
  start : front.atLineStart = true
  /-- It starts within the stretch. -/
  within : ∃ x y, stretch = x ++ mark :: y ∧ front = x.reverse ++ past ∧ rest = y ++ after

theorem StartsLine.of_getElem? {past : Past} {stretch after : List Mark} {n : Nat} {mark : Mark}
    (start : Past.atLineStart ((stretch.take n).reverse ++ past) = true)
    (found : stretch[n]? = some mark) :
    StartsLine past stretch after ((stretch.take n).reverse ++ past) mark
      (stretch.drop (n + 1) ++ after) := by
  obtain ⟨within, rfl⟩ := List.getElem?_eq_some_iff.mp found
  refine ⟨start, stretch.take n, stretch.drop (n + 1), ?_, rfl, rfl⟩
  rw [List.getElem_cons_drop, List.take_append_drop]

/-- The text of a line, which starts with these marks. -/
def lineText (marks : List Mark) : Text := Text.firstLine (marks.map (·.char))

/-- A stretch behind another one has its lines. -/
theorem StartsLine.behind {past front : Past} {earlier later after rest : List Mark} {mark : Mark}
    (h : StartsLine (earlier.reverse ++ past) later after front mark rest) :
    StartsLine past (earlier ++ later) after front mark rest := by
  obtain ⟨start, x, y, rfl, rfl, rfl⟩ := h
  refine ⟨start, earlier ++ x, y, (List.append_assoc _ _ _).symm, ?_, rfl⟩
  rw [List.reverse_append, List.append_assoc]

/-- A stretch with more behind it has its lines. -/
theorem StartsLine.extend {past front : Past} {earlier later after rest : List Mark} {mark : Mark}
    (h : StartsLine past earlier (later ++ after) front mark rest) :
    StartsLine past (earlier ++ later) after front mark rest := by
  obtain ⟨start, x, y, rfl, rfl, rfl⟩ := h
  refine ⟨start, x, y ++ later, ?_, rfl, (List.append_assoc _ _ _).symm⟩
  rw [List.append_assoc]
  rfl

/-- Where what stands in front holds no line feed, lines start only beyond it. -/
theorem StartsLine.beyond {past front : Past} {lead earlier later after rest : List Mark}
    {mark : Mark} (h : StartsLine (lead.reverse ++ past) (earlier ++ later) after front mark rest)
    (nonempty : lead ≠ []) (oneLine : '\n' ∉ (lead ++ earlier).map (·.char)) :
    StartsLine ((lead ++ earlier).reverse ++ past) later after front mark rest := by
  obtain ⟨start, x, y, split, rfl, rfl⟩ := h
  rcases List.append_eq_append_iff.mp split with ⟨x', rfl, rfl⟩ | ⟨z, rfl, -⟩
  · refine ⟨start, x', y, rfl, ?_, rfl⟩
    rw [List.reverse_append, List.reverse_append, List.append_assoc, List.append_assoc]
  · -- the line would start behind part of what stands in front
    rw [← List.append_assoc, ← List.reverse_append] at start
    have lf := Past.lf_mem_of_atLineStart
      (by simpa using fun none => absurd none nonempty : lead ++ x ≠ []) start
    refine absurd ?_ oneLine
    rw [← List.append_assoc, List.map_append]
    exact List.mem_append_left _ lf

/-- No line of a stretch ends a mata region or leaves the mode. -/
structure Uneventful (past : Past) (stretch after : List Mark) : Prop where
  /-- What is read as code does not begin with `end`. -/
  notEnd : ∀ front mark rest, StartsLine past stretch after front mark rest →
    mark.kind = .plainText → Line.closesBlock (lineText (mark :: rest)) = false
  /-- What is read as a comment is no directive. -/
  noDirective : ∀ front mark rest, StartsLine past stretch after front mark rest →
    mark.kind = .commentLine → Line.directive? (lineText (mark :: rest)) ≠ some .explicit

theorem Uneventful.behind {past : Past} {earlier later after : List Mark}
    (h : Uneventful past (earlier ++ later) after) :
    Uneventful (earlier.reverse ++ past) later after :=
  ⟨fun front mark rest line => h.notEnd front mark rest line.behind,
    fun front mark rest line => h.noDirective front mark rest line.behind⟩

theorem Uneventful.beyond {past : Past} {lead earlier later after : List Mark}
    (h : Uneventful ((lead ++ earlier).reverse ++ past) later after) (nonempty : lead ≠ [])
    (oneLine : '\n' ∉ (lead ++ earlier).map (·.char)) :
    Uneventful (lead.reverse ++ past) (earlier ++ later) after :=
  ⟨fun front mark rest line => h.notEnd front mark rest (line.beyond nonempty oneLine),
    fun front mark rest line => h.noDirective front mark rest (line.beyond nonempty oneLine)⟩

/-- A step at the start of an uneventful stretch stays in the region. -/
theorem step_uneventful {s : State} (attentive : Attentive s) {c : Char} {text : Text}
    (noQuote : '"' ∉ c :: text) {mark : Mark} {stretch after : List Mark}
    (uneventful : Uneventful s.past (mark :: stretch) after)
    (chars : (mark :: (stretch ++ after)).map (·.char) = c :: text)
    (kind : (act s (c :: text)).1.kind = mark.kind) : Attentive (step s c text).1 := by
  have here (start : s.past.atLineStart = true) :
      StartsLine s.past (mark :: stretch) after s.past mark (stretch ++ after) :=
    ⟨start, [], stretch, rfl, rfl, rfl⟩
  have line : lineText (mark :: (stretch ++ after)) = Text.firstLine (c :: text) :=
    congrArg Text.firstLine chars
  refine step_attentive attentive noQuote (fun root start => ?_) fun root start directive => ?_
  · by_contra closes
    have plain := plain_of_closesBlock attentive root noQuote (eq_true_of_ne_false closes)
    have other := uneventful.notEnd _ _ _ (here start) (kind.symm.trans plain)
    rw [line] at other
    exact closes other
  · have comment := kind_of_directive attentive root start directive
    have other := uneventful.noDirective _ _ _ (here start) (kind.symm.trans comment)
    rw [line] at other
    exact other directive

/-- **Over an uneventful stretch the pass stays in the region,** and comes by each line start behind
it. -/
theorem exists_attentive {s : State} (attentive : Attentive s) {left : Text} (noQuote : '"' ∉ left)
    {x y : List Mark} (past : (run s left).past = (x ++ y).reverse ++ s.past)
    (uneventful : Uneventful s.past x y) (start : Past.atLineStart (x.reverse ++ s.past) = true) :
    ∃ s' left', Attentive s' ∧ s'.past = x.reverse ++ s.past ∧
      (run s' left').past = y.reverse ++ s'.past := by
  fun_induction run s left generalizing x with
  | case1 s =>
    have length := congrArg List.length past
    simp at length
    obtain ⟨rfl, rfl⟩ : x = [] ∧ y = [] :=
      ⟨List.length_eq_zero_iff.mp (by omega), List.length_eq_zero_iff.mp (by omega)⟩
    exact ⟨s, [], attentive, rfl, by rw [run]; rfl⟩
  | case2 s c text next ih =>
    rw [← run_cons] at past
    cases x with
    | nil => exact ⟨s, c :: text, attentive, rfl, past⟩
    | cons mark x =>
      obtain ⟨c', text', whole, char, kind, later, others, past'⟩ := run_first past
      obtain ⟨rfl, rfl⟩ := List.cons.inj whole
      rw [settle_attentive attentive] at kind others
      have attentive' : Attentive next.1 :=
        step_uneventful attentive noQuote uneventful (chars_of_run past) kind
      have behind : next.1.past = (mark :: (text.take (act s (c :: text)).1.more).map
          (Mark.mk mark.kind)).reverse ++ s.past := by
        show (step s c text).1.past = _
        rw [past_step, marksRead, settle_attentive attentive, List.map_cons, kind, ← char]
      generalize read : (text.take (act s (c :: text)).1.more).map (Mark.mk mark.kind) = marks
        at others behind
      rcases List.append_eq_append_iff.mp others with ⟨z, split, rest⟩ | ⟨x', rfl, rest⟩
      · cases z with
        | nil =>
          rw [List.append_nil] at split
          rw [List.nil_append] at rest
          subst split rest
          exact ⟨next.1, next.2, attentive', behind, past'⟩
        | cons more z =>
          -- the line would start within what one step reads
          exfalso
          have chars := congrArg (List.map (·.char)) (read.trans split)
          rw [List.map_map, List.map_append] at chars
          have parts : c :: text.take (act s (c :: text)).1.more
              = (mark :: x).map (·.char) ++ (more :: z).map (·.char) := by
            rw [List.map_cons, char, List.cons_append, ← chars]
            exact congrArg (c :: ·) (List.map_id _).symm
          exact notMem_lf_attentive attentive parts (List.cons_ne_nil _ _)
            (Past.lf_mem_of_atLineStart (List.cons_ne_nil _ _) start)
      · have whole : mark :: (marks ++ x') = (mark :: marks) ++ x' := rfl
        have turned : (mark :: (marks ++ x')).reverse ++ s.past = x'.reverse ++ next.1.past := by
          rw [behind, whole, List.reverse_append, List.append_assoc]
        rw [turned] at start ⊢
        rw [whole] at uneventful
        refine ih attentive' (fun m => noQuote (List.mem_cons_of_mem c (List.mem_of_mem_drop m)))
          ?_ ?_ start
        · rw [← rest]
          exact past'
        · rw [behind]
          exact uneventful.behind

/-! ## Where a region starts -/

/-- A statement that is a line of the source as it stands. -/
structure PlainLine (marks before line after : List Mark) : Prop extends
    Piece marks before line after where
  /-- Nothing on the line is a comment, and lines end statements there. -/
  plain : ∀ mark ∈ line, mark.kind = .plainText

section PlainLine

variable {initial : DelimiterMode} {text : Text} (noQuote : '"' ∉ text)
  {before line after : List Mark}
  (isLine : PlainLine (scanComments text initial).marks before line after)

include noQuote isLine

/-- The pass is outside everything where such a line starts, and reads all of it as code. -/
theorem exists_start_of_plainLine (nonempty : line ≠ []) :
    ∃ s left, Reached initial text s left ∧ s.past = before.reverse ∧
      (run s left).past = (line ++ after).reverse ++ s.past ∧ s.modes = .atRoot ∧
      s.delimiter = .newline ∧ s.past.atLineStart = true ∧ ReadBare s line after := by
  have bare : ∀ mark ∈ line, mark.Bare := by
    intro mark m
    have kind := isLine.plain mark m
    refine ⟨by rw [kind]; rfl, by rw [kind]; simp, fun quote => noQuote ?_⟩
    rw [← map_char_marks_scanComments text initial, isLine.split, ← quote]
    exact List.mem_map_of_mem (List.mem_append_left _ (List.mem_append_right _ m))
  obtain ⟨s, left, reached, behind, past, root, start⟩ :=
    exists_start_of_bare isLine.toPiece nonempty bare
  have reads := run_piece root past isLine.ends isLine.solid bare
  have newline : s.delimiter = .newline := by
    obtain ⟨mark, more, rfl⟩ := List.exists_cons_of_ne_nil nonempty
    have kind := reads.kinds mark List.mem_cons_self
    rw [isLine.plain mark List.mem_cons_self] at kind
    cases hd : s.delimiter with
    | newline => rfl
    | explicit terminator =>
      rw [hd] at kind
      exact TokenKind.noConfusion kind
  exact ⟨s, left, reached, behind, past, root, newline, start newline, reads⟩

/-- Such a line goes to the statements as it stands. -/
theorem spelled_of_plainLine (nonempty : line ≠ []) :
    line.flatMap statementChars = line.map (·.char) ∧
      lineText (line ++ after) = line.map (·.char) := by
  obtain ⟨s, -, -, -, -, -, newline, -, reads⟩ :=
    exists_start_of_plainLine noQuote isLine nonempty
  exact ⟨reads.spelled newline, reads.firstLine newline isLine.solid⟩

end PlainLine

/-- **A bare `mata` that is read as code** makes the pass attentive. -/
theorem attentive_of_opensMata {s : State} (root : s.modes = .atRoot)
    (newline : s.delimiter = .newline) (start : s.past.atLineStart = true) {c : Char} {rest : Text}
    (opens : Line.opensMata (Text.firstLine (c :: rest)) = true)
    (kind : (act s (c :: rest)).1.kind = .plainText) :
    marksRead s c rest = [⟨.plainText, c⟩] ∧ Attentive (step s c rest).1 := by
  rw [act_of_atRoot root] at kind
  obtain ⟨noDirective, -, -⟩ := rootStep_cases (s := s) (by rw [kind]; rfl)
  have opened : mataAfter s.inMata (Text.firstLine (c :: rest)) = true := by
    unfold mataAfter
    split
    · rw [Line.closesBlock_of_opensMata opens]
      rfl
    · exact opens
  have unled : Unled (c :: rest) := by
    refine ⟨?_, starOpener?_of_opensMata opens⟩
    have other := noDirective start
    rwa [newline] at other
  have acts : rootStep s (c :: rest) = (⟨.plainText, 0, s.modes⟩, .newline, true) := by
    have reads := plainMove_inv newline (c :: rest)
    rw [rootStep_of_unled newline fun _ => unled, if_pos start, opened] at kind ⊢
    dsimp only at kind
    generalize plainMove s (c :: rest) = move at reads kind
    cases reads with
    | comment opener =>
      have comment := isComment_slashComment? opener
      rw [kind] at comment
      exact Bool.noConfusion comment
    | string =>
      rw [newline] at kind
      exact TokenKind.noConfusion kind
    | terminator => exact TokenKind.noConfusion kind
    | text =>
      rw [newline]
      rfl
  rw [← act_of_atRoot root] at acts
  have settled := settle_of_atRoot root c
  refine ⟨by rw [marksRead, settled, acts]; rfl, ?_, ?_, ?_⟩
  · show (act (settle s c) (c :: rest)).2.1 = _
    rw [settled, acts]
  · show (act (settle s c) (c :: rest)).2.2 = _
    rw [settled, acts]
  · show Aside _ (act (settle s c) (c :: rest)).1.modes.entered
    rw [settled, acts, root]
    exact .root

/-- **Behind a bare `mata` that is a line of the source** the pass comes attentive to every line
start, as long as nothing happens that ends the region. -/
theorem exists_attentive_behind {initial : DelimiterMode} {text : Text} (noQuote : '"' ∉ text)
    {before opener x y : List Mark}
    (isLine : PlainLine (scanComments text initial).marks before opener (x ++ y))
    (opens : Line.opensMata (opener.map (·.char)) = true)
    (uneventful : Uneventful (before ++ opener).reverse x y)
    (start : Past.atLineStart (before ++ opener ++ x).reverse = true) :
    ∃ s left, Attentive s ∧ s.past = (before ++ opener ++ x).reverse ∧
      (run s left).past = y.reverse ++ s.past := by
  have nonempty : opener ≠ [] := by
    rintro rfl
    exact Bool.noConfusion opens
  obtain ⟨s, left, reached, behind, past, root, newline, begins, reads⟩ :=
    exists_start_of_plainLine noQuote isLine nonempty
  have line := reads.firstLine newline isLine.solid
  have oneLine : '\n' ∉ opener.map (·.char) := by
    rw [← line]
    exact Text.notMem_firstLine _
  obtain ⟨mark, more, rfl⟩ := List.exists_cons_of_ne_nil nonempty
  obtain ⟨c, rest, rfl, char, kind, later, others, past'⟩ := run_first past
  rw [settle_of_atRoot root] at kind others
  rw [isLine.plain mark List.mem_cons_self] at kind
  rw [chars_of_run past] at line
  obtain ⟨read, attentive⟩ := attentive_of_opensMata root newline begins (by rwa [line]) kind
  -- the first step reads one character
  have single : rest.take (act s (c :: rest)).1.more = [] := by
    have length := congrArg List.length read
    rw [marksRead, settle_of_atRoot root] at length
    simpa using length
  rw [single, List.map_nil, List.nil_append] at others
  have own : [(⟨.plainText, c⟩ : Mark)] = [mark] := by
    rw [← char, ← isLine.plain mark List.mem_cons_self]
  have next : (step s c rest).1.past = [mark].reverse ++ before.reverse := by
    rw [past_step, read, behind, own]
    rfl
  have turned (z : List Mark) : (before ++ mark :: more ++ z).reverse
      = (more ++ z).reverse ++ ([mark].reverse ++ before.reverse) := by
    simp
  have ahead : '"' ∉ (step s c rest).2 := by
    intro m
    refine noQuote ?_
    rw [← reached.text]
    exact List.mem_append_right _ (List.mem_cons_of_mem c (List.mem_of_mem_drop m))
  have whole : (run (step s c rest).1 (step s c rest).2).past
      = ((more ++ x) ++ y).reverse ++ (step s c rest).1.past := by
    rw [past', ← others, List.append_assoc]
    rfl
  have quiet : Uneventful (step s c rest).1.past (more ++ x) y := by
    rw [next]
    refine Uneventful.beyond ?_ (List.cons_ne_nil _ _) oneLine
    rwa [← List.reverse_append]
  rw [turned, ← next] at start ⊢
  exact exists_attentive attentive ahead whole quiet start

end Comments

end DoRunner
