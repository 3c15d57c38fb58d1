import DoRunner.Proofs.Source.CommentTokens
import DoRunner.Proofs.Source.Words

/-!
# Statements continued on the next line

Three slashes behind a blank continue a statement on the next line, and the comment pass takes them
out of it together with their line feed. What stands before them is then read as it would be
without them. What stands behind them is not: the pass believes that a line starts there, and reads
it as it would a text of its own (`marks_continued`).

So the two lines make the statement that they would on one line exactly when the second does not
begin with what only counts at the start of a line: a star or a delimiter directive
(`scanComments_continued`). Others can be broken over two lines: `gen y = x * 2`, broken before its
star, loses the factor (`scanComments_continued_product`).
-/

namespace DoRunner.Comments

/-! ## Texts without comments -/

/-- None of the marks belongs to a comment. -/
def Uncommented (marks : List Mark) : Prop := ∀ mark ∈ marks, mark.kind.isComment = false

theorem mem_past_run {mark : Mark} {s : State} (m : mark ∈ s.past) (text : Text) :
    mark ∈ (run s text).past := by
  fun_induction run s text with
  | case1 s => exact m
  | case2 s c rest next ih =>
    refine ih ?_
    rw [past_step]
    exact List.mem_append_right _ m

/-- A step on the way through a text without comments reads none. -/
theorem kind_of_uncommented {s : State} {c : Char} {rest : Text}
    (clean : Uncommented (run s (c :: rest)).past) :
    (act (settle s c) (c :: rest)).1.kind.isComment = false := by
  rw [run_cons] at clean
  refine clean ⟨(act (settle s c) (c :: rest)).1.kind, c⟩ (mem_past_run ?_ _)
  rw [past_step]
  exact List.mem_append_left _ (List.mem_reverse.mpr List.mem_cons_self)

theorem strippedText_eq_map_iff {scan : CommentScan} :
    scan.strippedText = scan.marks.map (·.char) ↔ Uncommented scan.marks := by
  rw [CommentScan.strippedText]
  constructor
  · intro same mark m
    have lengths := congrArg List.length same
    rw [List.length_map, List.length_map, List.length_filter_eq_length_iff] at lengths
    exact Bool.not_eq_true' _ |>.mp (lengths mark m)
  · intro clean
    rw [List.filter_eq_self.mpr fun mark m => by rw [clean mark m]; rfl]

theorem uncommented_of_tokens {marks : List Mark}
    (h : ∀ token ∈ Token.ofMarks marks, token.kind.isComment = false) : Uncommented marks := by
  intro mark m
  rw [← Token.flatMap_marks marks] at m
  obtain ⟨token, inTokens, m⟩ := List.mem_flatMap.mp m
  obtain ⟨c, -, rfl⟩ := List.mem_map.mp m
  exact h token inTokens

/-! ## Lines that start with nothing special -/

/-- No rule for the start of a line applies to a text: it begins neither with a directive that ends
the newline mode nor with a star. -/
structure Unled (text : Text) : Prop where
  /-- Its first line is no such directive. -/
  noDirective : Line.directive? (Text.firstLine text) ≠ some .explicit
  /-- It does not begin with a star. -/
  noStar : starOpener? text = none

/-- What opens a star comment holds its star. -/
theorem star_mem_of_starOpener? {t : Text} {more : Nat} (h : starOpener? t = some more) : '*' ∈ t := by
  unfold starOpener? at h
  split at h
  · rename_i after found
    have left : '*' ∈ '*' :: after := List.mem_cons_self
    rw [← found] at left
    exact (List.dropWhile_sublist _).subset left
  · exact absurd h (by simp)

theorem starOpener?_of_opensMata {rest : Text} (h : Line.opensMata (Text.firstLine rest) = true) :
    starOpener? rest = none := by
  cases opener : starOpener? rest with
  | none => rfl
  | some more =>
    -- a star on its line, which a bare `mata` does not have
    have star : '*' ∈ Text.firstLine rest := by
      by_cases lf : '\n' ∈ rest
      · obtain ⟨after, split⟩ := Text.exists_firstLine lf
        rw [split, starOpener?_line] at opener
        exact star_mem_of_starOpener? opener
      · rw [Text.firstLine_of_notMem lf]
        exact star_mem_of_starOpener? opener
    rw [Line.opensMata_of_mem star (by decide) (by decide)] at h
    exact absurd h Bool.false_ne_true

theorem rootStep_of_unled {s : State} (newline : s.delimiter = .newline) {rest : Text}
    (unled : s.past.atLineStart = true → Unled rest) :
    rootStep s rest = (plainMove s rest, .newline,
      if s.past.atLineStart then mataAfter s.inMata (Text.firstLine rest) else s.inMata) := by
  unfold rootStep
  rw [newline]
  dsimp only
  by_cases start : s.past.atLineStart = true
  · rw [if_pos start, if_pos start, if_neg (unled start).noDirective, (unled start).noStar, ite_self]
  · rw [if_neg start, if_neg start]

/-- Where a line has begun, nothing that takes a line of its own is looked for. -/
theorem rootStep_within {s : State} (newline : s.delimiter = .newline)
    (inside : s.past.atLineStart = false) (rest : Text) :
    rootStep s rest = (plainMove s rest, .newline, s.inMata) := by
  rw [rootStep_of_unled newline fun start => absurd (start.symm.trans inside) (by decide), inside,
    if_neg Bool.false_ne_true]

theorem act_of_atRoot {s : State} (root : s.modes = .atRoot) (rest : Text) :
    act s rest = rootStep s rest := by
  rw [act, root]
  rfl

theorem settle_of_atRoot {s : State} (root : s.modes = .atRoot) (c : Char) : settle s c = s := by
  rw [settle, root]
  rfl

theorem unled_of_rootStep {s : State} (newline : s.delimiter = .newline)
    (start : s.past.atLineStart = true) (noMata : s.inMata = false) {rest : Text}
    (h : (rootStep s rest).1.kind.isComment = false) : Unled rest := by
  unfold rootStep at h
  rw [newline] at h
  dsimp only at h
  rw [if_pos start, noMata] at h
  split at h
  · exact absurd h Bool.noConfusion
  · rename_i noDirective
    refine ⟨noDirective, ?_⟩
    by_cases mata : mataAfter false (Text.firstLine rest) = true
    · exact starOpener?_of_opensMata mata
    · rw [if_neg mata] at h
      cases opener : starOpener? rest with
      | none => rfl
      | some more =>
        rw [opener] at h
        exact absurd h Bool.noConfusion

/-- A text without comments begins with nothing special. -/
theorem unled_of_uncommented {text : Text}
    (clean : Uncommented (run (.initial .newline) text).past) : Unled text := by
  cases text with
  | nil => exact ⟨by simp [Line.directive?_of_blank (w := Text.firstLine []) rfl], rfl⟩
  | cons c rest =>
    have kind := kind_of_uncommented clean
    rw [settle_of_atRoot rfl, act_of_atRoot rfl] at kind
    exact unled_of_rootStep rfl rfl rfl kind

/-! ## What stands before a continuation -/

section Statement

variable {s : State} (root : s.modes = .atRoot) (newline : s.delimiter = .newline)

/-- What opens before a blank does not depend on what follows the blank. -/
theorem plainMove_spaced (s : State) {t : Text} (spaced : t.getLast? = some ' ') (more : Text) :
    plainMove s (t ++ more) = plainMove s t := by
  obtain ⟨front, rfl⟩ := List.getLast?_eq_some_iff.mp spaced
  have cut (rest : Text) : plainMove s (front ++ ' ' :: rest) = plainMove s front := by
    rw [plainMove, plainMove, slashComment?_eq, slashComment?_eq,
      Text.startsWith_append_cons (by decide), Text.startsWith_append_cons (by decide),
      Text.startsWith_append_cons (by decide), Quote.opens?_append_cons (by decide)]
  rw [List.append_assoc, List.cons_append, List.nil_append, cut, cut]

include root newline

theorem step_statement {c : Char} {rest : Text}
    (unled : s.past.atLineStart = true → Unled (c :: rest))
    (plain : plainMove s (c :: rest) = ⟨.plainText, 0, s.modes⟩) :
    step s c rest = ({ s with
      inMata := if s.past.atLineStart then mataAfter s.inMata (Text.firstLine (c :: rest))
        else s.inMata
      past := ⟨.plainText, c⟩ :: s.past }, rest) := by
  unfold step
  rw [settle_of_atRoot root]
  dsimp only
  rw [act_of_atRoot root, rootStep_of_unled newline unled, plain]
  dsimp only
  rw [sinceAfter, if_pos newline, ← newline]
  rfl

theorem plainMove_of_uncommented {c : Char} {t more : Text}
    (spaced : (c :: t).getLast? = some ' ') (noQuote : '"' ∉ c :: t)
    (unled : s.past.atLineStart = true → Unled (c :: (t ++ more)))
    (clean : Uncommented (run s (c :: (t ++ more))).past) :
    plainMove s (c :: t) = ⟨.plainText, 0, s.modes⟩ := by
  have kind := kind_of_uncommented clean
  rw [settle_of_atRoot root, act_of_atRoot root, rootStep_of_unled newline unled,
    ← List.cons_append, plainMove_spaced s spaced] at kind
  unfold plainMove at kind ⊢
  rw [Quote.opens?_of_notMem noQuote] at kind ⊢
  cases opener : slashComment? s Past.afterBlank (c :: t) with
  | none => rfl
  | some move =>
    rw [opener] at kind
    exact absurd (isComment_slashComment? opener) (by rw [kind]; exact Bool.false_ne_true)

/-- **Statement text before a blank is read as such, whatever follows it,** if it is read so before
one text. -/
theorem run_statement (inside : s.past.atLineStart = false) {t : Text}
    (spaced : t = [] ∨ t.getLast? = some ' ') (oneLine : '\n' ∉ t) (noQuote : '"' ∉ t) {more : Text}
    (clean : Uncommented (run s (t ++ more)).past) (inMata : Bool) (other : Text) :
    run { s with inMata } (t ++ other)
      = run { s with inMata, past := s.past.extend .plainText t } other := by
  induction t generalizing s with
  | nil => rfl
  | cons c t ih =>
    have ends : (c :: t).getLast? = some ' ' := spaced.resolve_left (List.cons_ne_nil c t)
    have notStart : ∀ text, s.past.atLineStart = true → Unled text := by
      rw [inside]
      exact fun _ h => absurd h Bool.false_ne_true
    have plain := plainMove_of_uncommented root newline ends noQuote (notStart _) clean
    -- the step is the same before both texts, since it sees no further than the blank
    have here := step_statement root newline (notStart (c :: (t ++ more)))
      (by rw [← List.cons_append, plainMove_spaced s ends, plain])
    have there := @step_statement { s with inMata } root newline c (t ++ other) (notStart _)
      (by rw [← List.cons_append, plainMove_spaced _ ends]; exact plain)
    have noLf : (c == '\n') = false :=
      beq_false_of_ne fun same => oneLine (same ▸ List.mem_cons_self)
    rw [inside, if_neg Bool.false_ne_true] at here there
    rw [List.cons_append, run_cons, here] at clean
    rw [List.cons_append, run_cons, there]
    refine @ih { s with past := ⟨.plainText, c⟩ :: s.past } root newline noLf ?_
      (fun m => oneLine (List.mem_cons_of_mem c m)) (fun m => noQuote (List.mem_cons_of_mem c m))
      clean
    cases t with
    | nil => exact .inl rfl
    | cons d t => exact .inr (by rwa [List.getLast?_cons_cons] at ends)

/-- **The continuation itself** is read with its line feed, and the statement goes on. -/
theorem run_slashes (inside : s.past.atLineStart = false) (blank : s.past.afterBlank = true)
    (b : Text) : run s ("///\n".toList ++ b)
      = run { s with past := s.past.extend .commentContinuation "///\n".toList } b := by
  obtain ⟨modes, delimiter, since, inMata, past⟩ := s
  obtain rfl : modes = .atRoot := root
  obtain rfl : delimiter = .newline := newline
  have opens : act ⟨.atRoot, .newline, since, inMata, past⟩ ('/' :: ("//\n".toList ++ b))
      = (⟨.commentContinuation, 2, ModeStack.atRoot.push .continuation⟩, .newline, inMata) := by
    rw [act_of_atRoot rfl, rootStep_within rfl inside, plainMove, slashComment?_eq]
    dsimp only at blank ⊢
    rw [if_pos blank]
    rfl
  have opened := step_eq_of_act (settle_of_atRoot rfl '/') opens
  show run _ ('/' :: ("//\n".toList ++ b)) = _
  rw [run_cons, opened]
  -- what is left is the line feed, which a continuation takes along
  show run _ ('\n' :: b) = _
  rw [run_cons, step_of_act rfl rfl]
  rfl

end Statement

/-- What may stand before a star. -/
def isIndent (c : Char) : Bool := c == ' ' || c == '\t'

theorem starOpener?_eq (rest : Text) :
    starOpener? rest = match rest.dropWhile isIndent with
      | '*' :: _ => some (rest.takeWhile isIndent).length
      | _ => none := rfl

theorem isBlank_of_isIndent {c : Char} (h : isIndent c = true) : isBlank c = true := by
  rcases Bool.or_eq_true_iff.mp h with same | same
  · rw [beq_iff_eq.mp same]
    rfl
  · rw [beq_iff_eq.mp same]
    rfl

/-- Whether a star comment opens is seen from the first character that it cannot stand behind. -/
theorem starOpener?_append_of_solid {a : Text} (solid : a.all isIndent = false) (t : Text) :
    starOpener? (a ++ t) = starOpener? a := by
  have stays : a.dropWhile isIndent ≠ [] := by
    intro gone
    exact Bool.eq_false_iff.mp solid (List.all_eq_true.mpr (List.dropWhile_eq_nil_iff.mp gone))
  obtain ⟨c, rest, left⟩ := List.exists_cons_of_ne_nil stays
  have first : isIndent c = false := by
    have head := List.head_dropWhile_not isIndent stays
    simpa only [left, List.head_cons, Bool.not_eq_true] using head
  have split := List.takeWhile_append_dropWhile (p := isIndent) (l := a)
  have none : (a.takeWhile isIndent).dropWhile isIndent = [] :=
    List.dropWhile_eq_nil_iff.mpr fun c m => List.mem_takeWhile_imp m
  rw [left] at split
  rw [starOpener?_eq, starOpener?_eq, ← split, List.append_assoc, List.cons_append,
    dropWhile_append_cons first, takeWhile_append_cons first, dropWhile_append_cons first,
    takeWhile_append_cons first, none]
  by_cases star : c = '*'
  · rw [star]
    rfl
  · simp [star]

/-- The first ink is such a character. -/
theorem starOpener?_append_of_ink {a : Text} (ink : Text.blank a = false) (t : Text) :
    starOpener? (a ++ t) = starOpener? a := by
  refine starOpener?_append_of_solid (Bool.eq_false_iff.mpr fun indent => ?_) t
  refine Bool.eq_false_iff.mp ink (List.all_eq_true.mpr fun c m => ?_)
  exact isBlank_of_isIndent (List.all_eq_true.mp indent c m)

/-- A line that a continuation can follow: it holds statement text and no double quote, and ends in
a space. -/
structure Continuable (a : Text) : Prop where
  /-- It is one line. -/
  oneLine : '\n' ∉ a
  /-- It holds more than blanks. -/
  ink : Text.blank a = false
  /-- It holds no double quote. -/
  noQuote : '"' ∉ a
  /-- It ends in a space. -/
  spaced : a.getLast? = some ' '

section Continued

variable {a b : Text} (line : Continuable a)
  (clean : Uncommented (run (.initial .newline) (a ++ b)).past)

include line clean

theorem run_opening {other : Text}
    (noDirective : Line.directive? (Text.firstLine (a ++ other)) ≠ some .explicit) :
    run (.initial .newline) (a ++ other) = run { State.initial .newline with
      inMata := Line.opensMata (Text.firstLine (a ++ other))
      past := Past.extend [] .plainText a } other := by
  obtain ⟨oneLine, ink, noQuote, spaced⟩ := line
  have unledHere := unled_of_uncommented clean
  have unledThere : Unled (a ++ other) := by
    refine ⟨noDirective, ?_⟩
    rw [starOpener?_append_of_ink ink, ← starOpener?_append_of_ink ink b, unledHere.noStar]
  cases a with
  | nil => exact absurd ink (by decide)
  | cons c t =>
    rw [List.cons_append] at clean unledHere unledThere ⊢
    have plain := plainMove_of_uncommented rfl rfl spaced noQuote (fun _ => unledHere) clean
    have here := step_statement (s := .initial .newline) rfl rfl (fun _ => unledHere)
      (by rw [← List.cons_append, plainMove_spaced _ spaced, plain])
    have there := step_statement (s := .initial .newline) rfl rfl (fun _ => unledThere)
      (by rw [← List.cons_append, plainMove_spaced _ spaced, plain])
    rw [run_cons, here] at clean
    rw [run_cons, there]
    have noLf : (c == '\n') = false :=
      beq_false_of_ne fun same => oneLine (same ▸ List.mem_cons_self)
    refine run_statement
      (s := { State.initial .newline with
        inMata := Line.opensMata (Text.firstLine (c :: (t ++ b)))
        past := [⟨.plainText, c⟩] }) rfl rfl noLf ?_
      (fun m => oneLine (List.mem_cons_of_mem c m))
      (fun m => noQuote (List.mem_cons_of_mem c m)) clean _ other
    cases t with
    | nil => exact .inl rfl
    | cons d t => exact .inr (by rwa [List.getLast?_cons_cons] at spaced)

theorem run_continued :
    run (.initial .newline) (a ++ ("///\n".toList ++ b)) = run { State.initial .newline with
      past := (Past.extend [] .plainText a).extend .commentContinuation "///\n".toList } b := by
  have first : Text.firstLine (a ++ ("///\n".toList ++ b)) = a ++ "///".toList := by
    have split : a ++ ("///\n".toList ++ b) = (a ++ "///".toList) ++ '\n' :: b := by
      rw [List.append_assoc]
      rfl
    rw [split, Text.firstLine_append_lf]
    intro m
    rcases List.mem_append.mp m with m | m
    · exact line.oneLine m
    · exact absurd m (by decide)
  have slash : '/' ∈ a ++ "///".toList := List.mem_append_right a List.mem_cons_self
  have noDirective := Line.directive?_of_mem slash (by decide) (by decide)
  have noMata := Line.opensMata_of_mem slash (by decide) (by decide)
  rw [run_opening line clean (by rw [first, noDirective]; simp), first, noMata]
  obtain ⟨front, rfl⟩ := List.getLast?_eq_some_iff.mp line.spaced
  exact run_slashes rfl rfl (by rw [Past.extend_append]; rfl) (by rw [Past.extend_append]; rfl) b

/-- **What is behind a continuation is read as a text of its own.** -/
theorem scanComments_behind :
    (scanComments (a ++ ("///\n".toList ++ b)) .newline).marks
        = a.map (Mark.mk .plainText) ++ "///\n".toList.map (Mark.mk .commentContinuation)
          ++ (scanComments b .newline).marks ∧
      (scanComments (a ++ ("///\n".toList ++ b)) .newline).finalMode
        = (scanComments b .newline).finalMode := by
  let behind := (Past.extend [] .plainText a).extend .commentContinuation "///\n".toList
  have alike : Past.Alike [] behind := Past.alike_of_lf rfl
  have length : Text.byteLength (Past.text behind)
      = Text.byteLength (Past.text []) + Text.byteLength (Past.text behind) :=
    (Nat.zero_add _).symm
  have start : Follows [] behind (Text.byteLength (Past.text behind)) (.initial .newline)
      { State.initial .newline with past := behind } :=
    ⟨rfl, rfl, rfl, rfl, [], rfl, rfl, fun explicit => absurd explicit Bool.false_ne_true⟩
  have follows := run_follows alike length start b
  obtain ⟨marks, here, there, -⟩ := follows.past
  rw [List.append_nil] at here
  rw [scanComments, scanComments, run_continued line clean]
  refine ⟨?_, follows.delimiter⟩
  dsimp only
  rw [there, here, List.reverse_append, Past.reverse_extend, Past.reverse_extend]
  rfl

end Continued

/-! ## On one line -/

/-- Two states on one line, past its start, that have the same latest marks. One of them has `q`
before these. Which mata region the line belongs to does not matter any more. -/
structure OnLine (q : Past) (s s' : State) : Prop where
  /-- Both are inside of the same. -/
  modes : s'.modes = s.modes
  /-- Lines end statements in one. -/
  newline : s.delimiter = .newline
  /-- And in the other. -/
  newline' : s'.delimiter = .newline
  /-- The line has begun. -/
  inside : s.past.atLineStart = false
  /-- The latest marks are the same. -/
  past : s'.past = s.past ++ q

section OnLine

variable {q : Past} {s s' : State}

theorem plainMove_of_alike (modes : s'.modes = s.modes)
    (blank : s'.past.afterBlank = s.past.afterBlank)
    (backquote : s'.past.afterBackquote = s.past.afterBackquote) (rest : Text) :
    plainMove s' rest = plainMove s rest := by
  unfold plainMove slashComment? Quote.opens?
  rw [modes, blank, backquote]

theorem act_onLine (h : OnLine q s s') (rest : Text) :
    act s rest = ((act s rest).1, .newline, s.inMata) ∧
      act s' rest = ((act s rest).1, .newline, s'.inMata) := by
  obtain ⟨modes, newline, newline', inside, past⟩ := h
  have ⟨inside', blank, backquote⟩ : s'.past.atLineStart = false ∧
      s'.past.afterBlank = s.past.afterBlank ∧ s'.past.afterBackquote = s.past.afterBackquote := by
    rw [past]
    cases hp : s.past with
    | nil => rw [hp] at inside; exact absurd inside (by decide)
    | cons mark marks => exact ⟨by rw [hp] at inside; exact inside, rfl, rfl⟩
  unfold act blockMove starCommentMove lineCommentMove continuationMove stringMove
  rw [modes, newline, newline', blank, rootStep_within newline inside,
    rootStep_within newline' inside', plainMove_of_alike modes blank backquote]
  cases s.modes.top <;> exact ⟨rfl, rfl⟩

/-- The same move keeps two pasts in step. -/
theorem onLine_of_act {move : Move} {inMata inMata' : Bool} {c : Char} {rest : Text}
    (newline : s.delimiter = .newline) (newline' : s'.delimiter = .newline)
    (past : s'.past = s.past ++ q) (acts : act s (c :: rest) = (move, .newline, inMata))
    (acts' : act s' (c :: rest) = (move, .newline, inMata')) (oneLine : '\n' ∉ c :: rest) :
    OnLine q (step s c rest).1 (step s' c rest).1 ∧ (step s' c rest).2 = (step s c rest).2 := by
  have noLf : c ≠ '\n' := fun same => oneLine (same ▸ List.mem_cons_self)
  have read : '\n' ∉ c :: rest.take move.more := by
    intro m
    rcases List.mem_cons.mp m with same | m
    · exact noLf same.symm
    · exact oneLine (List.mem_cons_of_mem c (List.mem_of_mem_take m))
  unfold step
  rw [settle_of_ne newline noLf, settle_of_ne newline' noLf]
  dsimp only
  rw [acts, acts']
  refine ⟨⟨rfl, rfl, rfl, Past.atLineStart_extend (List.cons_ne_nil _ _) read, ?_⟩, rfl⟩
  dsimp only
  rw [past, Past.extend_eq, Past.extend_eq, List.append_assoc]

theorem step_onLine (h : OnLine q s s') {c : Char} {rest : Text} (oneLine : '\n' ∉ c :: rest) :
    OnLine q (step s c rest).1 (step s' c rest).1 ∧ (step s' c rest).2 = (step s c rest).2 :=
  have ⟨acts, acts'⟩ := act_onLine h (c :: rest)
  onLine_of_act h.newline h.newline' h.past acts acts' oneLine

/-- **To the end of the line nothing is asked of what stands before.** -/
theorem run_onLine (h : OnLine q s s') {text : Text} (oneLine : '\n' ∉ text) :
    OnLine q (run s text) (run s' text) := by
  fun_induction run s text generalizing s' with
  | case1 s =>
    rw [run]
    exact h
  | case2 s c rest next =>
    rename_i ih
    obtain ⟨onLine, left⟩ := step_onLine h oneLine
    rw [run, left]
    exact ih onLine fun m => oneLine (List.mem_cons_of_mem c (List.mem_of_mem_drop m))

end OnLine

/-- A text that begins with nothing special is read alike at the start of a line and behind a
blank on it. -/
theorem run_behind_blank {s : State} (root : s.modes = .atRoot) (newline : s.delimiter = .newline)
    (inside : s.past.atLineStart = false) (blank : s.past.afterBlank = true)
    (backquote : s.past.afterBackquote = false) {b : Text} (oneLine : '\n' ∉ b) (unled : Unled b) :
    (run s b).past = (run (.initial .newline) b).past ++ s.past ∧
      (run (.initial .newline) b).delimiter = .newline := by
  cases b with
  | nil =>
    rw [run, run]
    exact ⟨rfl, rfl⟩
  | cons c rest =>
    have alike := @plainMove_of_alike (.initial .newline) s root blank backquote (c :: rest)
    have here := rootStep_of_unled (s := .initial .newline) rfl fun _ => unled
    have there := @rootStep_of_unled s newline (c :: rest) fun start =>
      absurd (start.symm.trans inside) (by decide)
    rw [← act_of_atRoot rfl] at here
    rw [alike, ← act_of_atRoot root] at there
    obtain ⟨onLine, left⟩ := onLine_of_act (s := .initial .newline) rfl newline rfl here there oneLine
    rw [run_cons, run_cons, left]
    have still : '\n' ∉ (step (.initial .newline) c rest).2 := fun m =>
      oneLine (List.mem_cons_of_mem c (List.mem_of_mem_drop m))
    have ends := run_onLine onLine still
    exact ⟨ends.past, ends.newline⟩

/-! ## Statements that may be broken -/

/-- **A continuation joins two lines,** except where the second begins as only a line may. The part
before it keeps its text and the part behind it is read as a text of its own; so the statement is
what it was on one line, and lines end statements after it as before, exactly if the second line
begins neither with a star nor with a directive that ends the newline mode. -/
theorem scanComments_continued {a b : Text} (line : Continuable a) (oneLine : '\n' ∉ b)
    (noComment : ∀ token ∈ (scanComments (a ++ b) .newline).tokens, token.kind.isComment = false) :
    let joined := scanComments (a ++ ("///\n".toList ++ b)) .newline
    joined.strippedText = a ++ (scanComments b .newline).strippedText ∧
      joined.finalMode = (scanComments b .newline).finalMode ∧
      (joined.strippedText = a ++ b ∧ joined.finalMode = .newline ↔
        starOpener? b = none ∧ Line.directive? b ≠ some .explicit) := by
  have clean : Uncommented (run (.initial .newline) (a ++ b)).past :=
    fun mark m => uncommented_of_tokens noComment mark (List.mem_reverse.mpr m)
  obtain ⟨marks, final⟩ := scanComments_behind line clean
  have stripped : (scanComments (a ++ ("///\n".toList ++ b)) .newline).strippedText
      = a ++ (scanComments b .newline).strippedText := by
    have kept : (a.map (Mark.mk .plainText)).filter (fun mark => !mark.kind.isComment)
        = a.map (Mark.mk .plainText) := by
      refine List.filter_eq_self.mpr fun mark m => ?_
      obtain ⟨c, -, rfl⟩ := List.mem_map.mp m
      rfl
    have chars : (a.map (Mark.mk .plainText)).map (·.char) = a := by
      rw [List.map_map]
      exact List.map_id a
    rw [CommentScan.strippedText, marks, List.filter_append, List.filter_append, kept,
      List.map_append, List.map_append, chars]
    exact congrArg (· ++ _) (List.append_nil a)
  refine ⟨stripped, final, ?_⟩
  have spelt := map_char_marks_scanComments b .newline
  rw [stripped, final, List.append_cancel_left_eq]
  constructor
  · rintro ⟨same, -⟩
    have alone := strippedText_eq_map_iff.mp (same.trans spelt.symm)
    have unled := unled_of_uncommented fun mark m => alone mark (List.mem_reverse.mpr m)
    exact ⟨unled.noStar, by rw [← Text.firstLine_of_notMem oneLine]; exact unled.noDirective⟩
  · rintro ⟨noStar, noDirective⟩
    have unled : Unled b := ⟨by rwa [Text.firstLine_of_notMem oneLine], noStar⟩
    have opening := run_opening line clean (unled_of_uncommented clean).noDirective
    have spaced : (Past.extend [] .plainText a).afterBlank = true ∧
        (Past.extend [] .plainText a).afterBackquote = false := by
      obtain ⟨front, rfl⟩ := List.getLast?_eq_some_iff.mp line.spaced
      rw [Past.extend_append]
      exact ⟨rfl, rfl⟩
    have begun : (Past.extend [] .plainText a).atLineStart = false := by
      refine Past.atLineStart_extend ?_ line.oneLine
      rintro rfl
      exact absurd line.ink (by decide)
    -- what follows on one line is read behind `a` as it is at the start of a line
    obtain ⟨past, newline⟩ := run_behind_blank (b := b)
      (s := { State.initial .newline with
        inMata := Line.opensMata (Text.firstLine (a ++ b))
        past := Past.extend [] .plainText a }) rfl rfl begun spaced.1 spaced.2 oneLine unled
    have alone : Uncommented (scanComments b .newline).marks := by
      intro mark m
      refine clean mark ?_
      rw [opening, past]
      exact List.mem_append_left _ (List.mem_reverse.mp m)
    exact ⟨(strippedText_eq_map_iff.mpr alone).trans spelt, newline⟩

/-- A sum whose second term is on a line of its own. -/
theorem scanComments_continued_sum :
    let joined := scanComments ("gen y = x ".toList ++ ("///\n".toList ++ "+ 2".toList)) .newline
    joined.strippedText = "gen y = x + 2".toList ∧ joined.finalMode = .newline :=
  (scanComments_continued (a := "gen y = x ".toList) (b := "+ 2".toList)
    ⟨by decide, by decide, by decide, by decide⟩ (by decide)
    (by decide +kernel)).2.2.mpr ⟨by decide, by decide⟩

/-- **A product does not survive its continuation.** On one line the statement holds no comment; on
two, its second factor is one. Nor does a statement whose second line asks for another terminator,
which is then in force for all that follows. -/
theorem scanComments_continued_product :
    (∀ token ∈ (scanComments "gen y = x * 2".toList .newline).tokens,
        token.kind.isComment = false) ∧
      (scanComments "gen y = x ///\n* 2".toList .newline).strippedText = "gen y = x ".toList ∧
      (∀ token ∈ (scanComments "gen y = x #delimit ;".toList .newline).tokens,
        token.kind.isComment = false) ∧
      (scanComments "gen y = x ///\n#delimit ;".toList .newline).finalMode = .semicolon := by
  decide +kernel

end DoRunner.Comments
