import DoRunner.Proofs.Source.Line
import DoRunner.Proofs.Source.Moves
import DoRunner.Source.Blocks

/-!
# How far a scanner looks back

A scanner asks little of what it has behind it: whether a line starts here, what the last character
was, whether the line so far is blank, and, under an explicit terminator, what the last character
was that is no blank. Two pasts that answer alike (`Past.Alike`) lead to the same steps, and they
still do when the same marks are added to both.

So scanning goes on from a text behind as it would from any other that answers alike
(`Comments.run_follows`). At the start of a line that is every text with a line feed at its end, and
no text at all.
-/

namespace DoRunner

namespace Past

/-! ## What is asked -/

/-- Whether the line so far is blank. -/
def blankSoFar (past : Past) : Bool :=
  (past.takeWhile fun mark => mark.char != '\n').all fun mark => isBlank mark.char

/-- The last character that is no blank. -/
def lastInk? (past : Past) : Option Char :=
  (past.find? fun mark => !isBlank mark.char).map (·.char)

theorem spacedAfter_eq (c : Char) (past : Past) :
    past.spacedAfter c = (past.afterBlank && past.lastInk?.any (· == c)) := by
  rw [spacedAfter, lastInk?, Option.any_map]

theorem text_append (marks : List Mark) (past : Past) :
    text (marks ++ past) = text past ++ text marks := by
  rw [text, text, text, List.map_append, List.reverse_append]

theorem map_char_extend (past : Past) (kind : TokenKind) (chars : Text) :
    (past.extend kind chars).map (·.char) = chars.reverse ++ past.map (·.char) := by
  rw [extend_eq, List.map_append, List.map_reverse, List.map_map]
  exact congrArg (·.reverse ++ _) (List.map_id chars)

theorem head?_extend (past : Past) (kind : TokenKind) (c : Char) (chars : Text) :
    ∃ mark ∈ (past.extend kind (c :: chars)).head?, mark.kind = kind := by
  induction chars generalizing past c with
  | nil => exact ⟨⟨kind, c⟩, rfl, rfl⟩
  | cons d chars ih => exact ih (⟨kind, c⟩ :: past) d

theorem mem_extend {past : Past} {kind : TokenKind} {chars : Text} {mark : Mark}
    (h : mark ∈ past.extend kind chars) : mark.kind = kind ∨ mark ∈ past := by
  rw [extend_eq] at h
  rcases List.mem_append.mp h with h | h
  · obtain ⟨_, -, rfl⟩ := List.mem_map.mp (List.mem_reverse.mp h)
    exact .inl rfl
  · exact .inr h

/-- Two pasts answer alike. -/
structure Alike (p q : Past) : Prop where
  /-- A line starts after both or after neither. -/
  atLineStart : q.atLineStart = p.atLineStart
  /-- Both end in a blank, or neither does. -/
  afterBlank : q.afterBlank = p.afterBlank
  /-- Both end in a backquote, or neither does. -/
  afterBackquote : q.afterBackquote = p.afterBackquote
  /-- The last line is blank so far in both or in neither. -/
  blankSoFar : q.blankSoFar = p.blankSoFar

theorem blankSoFar_cons (mark : Mark) (past : Past) :
    blankSoFar (mark :: past)
      = if mark.char = '\n' then true else isBlank mark.char && blankSoFar past := by
  unfold blankSoFar
  by_cases h : mark.char = '\n'
  · rw [if_pos h, List.takeWhile_cons_of_neg (by simp [h])]
    rfl
  · rw [if_neg h, List.takeWhile_cons_of_pos (by simpa using h), List.all_cons]

theorem lastInk?_cons (mark : Mark) (past : Past) :
    lastInk? (mark :: past) = if isBlank mark.char then lastInk? past else some mark.char := by
  unfold lastInk?
  cases hb : isBlank mark.char with
  | true => rw [List.find?_cons_of_neg (by simp [hb]), if_pos rfl]
  | false => rw [List.find?_cons_of_pos (by simp [hb]), if_neg (by decide), Option.map_some]

theorem Alike.append {p q : Past} (h : Alike p q) (marks : List Mark) :
    Alike (marks ++ p) (marks ++ q) := by
  induction marks with
  | nil => exact h
  | cons mark marks ih =>
    refine ⟨rfl, rfl, rfl, ?_⟩
    rw [List.cons_append, List.cons_append, blankSoFar_cons, blankSoFar_cons, ih.blankSoFar]

theorem Alike.indented {p q : Past} (h : Alike p q) : q.indented = p.indented := by
  show (!q.atLineStart && q.blankSoFar) = (!p.atLineStart && p.blankSoFar)
  rw [h.atLineStart, h.blankSoFar]

/-- All texts with a line feed at their end are alike, and so is no text. -/
theorem alike_of_lf {q : Past} (h : (q.head?.map (·.char)) = some '\n') : Alike [] q := by
  cases q with
  | nil => exact absurd h (by simp)
  | cons mark past =>
    have hc : mark.char = '\n' := Option.some.inj h
    refine ⟨?_, ?_, ?_, ?_⟩
    · show (mark.char == '\n') = true
      rw [hc]
      rfl
    · show isBlank mark.char = true
      rw [hc]
      decide
    · show (mark.char == '\x60') = false
      rw [hc]
      rfl
    · rw [blankSoFar_cons, if_pos hc]
      rfl

/-- What is alike to no text is alike. -/
theorem alike_of_alike_nil {p q : Past} (hp : Alike [] p) (hq : Alike [] q) : Alike p q :=
  ⟨hq.atLineStart.trans hp.atLineStart.symm, hq.afterBlank.trans hp.afterBlank.symm,
    hq.afterBackquote.trans hp.afterBackquote.symm, hq.blankSoFar.trans hp.blankSoFar.symm⟩

/-- Pasts of the same characters are alike, whatever their kinds are. -/
theorem alike_of_chars {p q : Past} (h : q.map (·.char) = p.map (·.char)) :
    Alike p q ∧ q.lastInk? = p.lastInk? := by
  induction p generalizing q with
  | nil =>
    obtain rfl := List.map_eq_nil_iff.mp h
    exact ⟨⟨rfl, rfl, rfl, rfl⟩, rfl⟩
  | cons mark p ih =>
    obtain ⟨mark', q, rfl, hmark, hq⟩ := List.map_eq_cons_iff.mp h
    obtain ⟨alike, ink⟩ := ih hq
    refine ⟨⟨?_, ?_, ?_, ?_⟩, ?_⟩
    · show (mark'.char == '\n') = (mark.char == '\n')
      rw [hmark]
    · show isBlank mark'.char = isBlank mark.char
      rw [hmark]
    · show (mark'.char == '\x60') = (mark.char == '\x60')
      rw [hmark]
    · rw [blankSoFar_cons, blankSoFar_cons, hmark, alike.blankSoFar]
    · rw [lastInk?_cons, lastInk?_cons, hmark, ink]

/-- The last ink of marks behind which there is more is theirs, if they have any. -/
theorem lastInk?_append {marks : List Mark} {p q : Past}
    (h : q.lastInk? = p.lastInk? ∨ ∃ mark ∈ marks, isBlank mark.char = false) :
    lastInk? (marks ++ q) = lastInk? (marks ++ p) := by
  unfold lastInk? at h ⊢
  rw [List.find?_append, List.find?_append]
  cases hf : marks.find? fun mark => !isBlank mark.char with
  | some mark => rfl
  | none =>
    rw [Option.none_or, Option.none_or]
    rcases h with h | ⟨mark, m, hm⟩
    · exact h
    · have blank := List.find?_eq_none.mp hf mark m
      rw [hm] at blank
      exact absurd rfl blank

end Past

/-! ## The comment pass -/

namespace Comments

section Congr

variable {s s' : State} (modes : s'.modes = s.modes) (delimiter : s'.delimiter = s.delimiter)
  (inMata : s'.inMata = s.inMata) (alike : Past.Alike s.past s'.past) (rest : Text)

/-- Under an explicit terminator the same comment opens with slashes here, or none does. -/
def SlashesAgree (s s' : State) (rest : Text) : Prop :=
  ∀ terminator, s.delimiter = .explicit terminator →
    slashComment? s' (explicitLineCommentAllowed terminator) rest
      = slashComment? s (explicitLineCommentAllowed terminator) rest

include modes alike in
theorem slashComment?_congr {lineCommentAllowed : Past → Bool}
    (allowed : lineCommentAllowed s'.past = lineCommentAllowed s.past) :
    slashComment? s' lineCommentAllowed rest = slashComment? s lineCommentAllowed rest := by
  unfold slashComment?
  rw [modes, alike.afterBlank, allowed]

include modes alike in
theorem slashesAgree_of_ink
    (ink : s.delimiter.isExplicit = true → s'.past.lastInk? = s.past.lastInk?) :
    SlashesAgree s s' rest := by
  intro terminator explicit
  apply slashComment?_congr modes alike rest
  unfold explicitLineCommentAllowed
  rw [alike.indented, Past.spacedAfter_eq, Past.spacedAfter_eq, alike.afterBlank,
    ink (by rw [explicit]; rfl)]

include alike in
theorem opens?_congr : Quote.opens? s'.past rest = Quote.opens? s.past rest := by
  unfold Quote.opens?
  rw [alike.afterBackquote]

include modes alike in
theorem plainMove_congr : plainMove s' rest = plainMove s rest := by
  unfold plainMove
  rw [slashComment?_congr modes alike rest alike.afterBlank, opens?_congr alike, modes]

variable {rest} (slashes : SlashesAgree s s' rest)

include modes alike slashes in
theorem explicitMove_congr {terminator : Char} (explicit : s.delimiter = .explicit terminator) :
    explicitMove s' terminator rest = explicitMove s terminator rest := by
  unfold explicitMove
  rw [slashes terminator explicit, opens?_congr alike, modes]

include modes delimiter inMata alike slashes in
theorem rootStep_congr : rootStep s' rest = rootStep s rest := by
  unfold rootStep
  rw [delimiter, alike.atLineStart, inMata, plainMove_congr modes alike]
  cases hd : s.delimiter with
  | newline =>
    dsimp only
    rw [directiveMove, directiveMove, modes]
    simp only [starMove, modes]
  | explicit terminator =>
    dsimp only
    rw [explicitMove_congr modes alike slashes hd, directiveMove, directiveMove, modes]
    simp only [starMove, modes]

include modes delimiter inMata alike slashes in
/-- **The next step depends on the past only by what is asked of it.** -/
theorem act_congr : act s' rest = act s rest := by
  unfold act blockMove starCommentMove lineCommentMove continuationMove stringMove
  rw [modes, delimiter, inMata, alike.afterBlank,
    rootStep_congr modes delimiter inMata alike slashes]

end Congr

/-- The line that enters the explicit mode is not blank. -/
theorem ink_of_entered {s : State} {c : Char} {rest : Text} (before : s.delimiter.isExplicit = false)
    (after : (act s (c :: rest)).2.1.isExplicit = true) :
    ∃ d ∈ c :: rest.take (act s (c :: rest)).1.more, isBlank d = false := by
  rcases act_inv s (c :: rest) with ⟨move, acts⟩ | acts
  · rw [acts] at after
    exact absurd (before.symm.trans after) Bool.false_ne_true
  rw [acts] at after ⊢
  have does := rootStep_inv s (c :: rest)
  generalize (rootStep s (c :: rest)).1 = move, (rootStep s (c :: rest)).2.1 = delimiter
    at does after
  cases does with
  | star => exact absurd (before.symm.trans after) Bool.false_ne_true
  | statement => exact absurd (before.symm.trans after) Bool.false_ne_true
  | directive start asked =>
    by_cases hc : c = '\n'
    · rw [hc, Text.firstLine_lf, Line.directive?_of_blank rfl] at asked
      exact absurd asked (by simp)
    · have read : c :: rest.take (directiveMove s (c :: rest)).more = Text.firstLine (c :: rest) := by
        rw [Text.firstLine_cons_of_ne hc]
        exact congrArg (c :: ·) ( List.prefix_iff_eq_take.mp ( List.takeWhile_prefix _)).symm
      rw [read]
      by_contra none
      have blank : Text.blank (Text.firstLine (c :: rest)) = true := by
        refine List.all_eq_true.mpr fun d m => ?_
        by_contra hd
        exact none ⟨d, m, Bool.eq_false_iff.mpr hd⟩
      rw [Line.directive?_of_blank blank] at asked
      exact absurd asked (by simp)

/-! Leaving what ends before the next character changes nothing but the modes. -/

theorem exists_settle (s : State) (c : Char) : ∃ modes, settle s c = { s with modes } := by
  unfold settle
  split
  · split
    · exact ⟨_, rfl⟩
    · exact ⟨s.modes, rfl⟩
  · split
    · exact ⟨_, rfl⟩
    · exact ⟨s.modes, rfl⟩
  · exact ⟨s.modes, rfl⟩

theorem settle_delimiter (s : State) (c : Char) : (settle s c).delimiter = s.delimiter := by
  obtain ⟨modes, settled⟩ := exists_settle s c
  rw [settled]

theorem settle_explicitSince (s : State) (c : Char) :
    (settle s c).explicitSince = s.explicitSince := by
  obtain ⟨modes, settled⟩ := exists_settle s c
  rw [settled]

theorem settle_inMata (s : State) (c : Char) : (settle s c).inMata = s.inMata := by
  obtain ⟨modes, settled⟩ := exists_settle s c
  rw [settled]

theorem settle_past (s : State) (c : Char) : (settle s c).past = s.past := by
  obtain ⟨modes, settled⟩ := exists_settle s c
  rw [settled]

theorem settle_modes_congr {s s' : State} (modes : s'.modes = s.modes)
    (delimiter : s'.delimiter = s.delimiter) (c : Char) :
    (settle s' c).modes = (settle s c).modes := by
  unfold settle
  rw [modes, delimiter]
  split
  · split
    · rfl
    · exact modes
  · split
    · rfl
    · exact modes
  · exact modes

/-- Two states between which only the pasts differ, and these only in what stands before their
latest marks: `p` in one, `q` in the other, which has `n` bytes more. -/
structure Beside (p q : Past) (n : Nat) (marks : Past) (s s' : State) : Prop where
  /-- Both are inside of the same. -/
  modes : s'.modes = s.modes
  /-- The same ends a statement. -/
  delimiter : s'.delimiter = s.delimiter
  /-- Both belong to a mata region, or neither does. -/
  inMata : s'.inMata = s.inMata
  /-- The explicit mode was entered at the same place, counted with what stands before. -/
  since : s'.explicitSince = s.explicitSince.map (· + n)
  /-- The latest marks are these in one. -/
  past : s.past = marks ++ p
  /-- And they are these in the other. -/
  past' : s'.past = marks ++ q

/-- Two such states that also have the same last ink, where it counts: in the explicit mode the
latest marks have ink, if what stands before them differs in it. -/
structure Follows (p q : Past) (n : Nat) (s s' : State) : Prop where
  /-- Both are inside of the same. -/
  modes : s'.modes = s.modes
  /-- The same ends a statement. -/
  delimiter : s'.delimiter = s.delimiter
  /-- Both belong to a mata region, or neither does. -/
  inMata : s'.inMata = s.inMata
  /-- The explicit mode was entered at the same place, counted with what stands before. -/
  since : s'.explicitSince = s.explicitSince.map (· + n)
  /-- The latest marks are the same. In the explicit mode they have ink, if what stands before them
  differs in it. -/
  past : ∃ marks, s.past = marks ++ p ∧ s'.past = marks ++ q ∧
    (s.delimiter.isExplicit = true →
      q.lastInk? = p.lastInk? ∨ ∃ mark ∈ marks, isBlank mark.char = false)

/-- The marks that a step adds, the latest first. -/
def marksRead (s : State) (c : Char) (rest : Text) : Past :=
  let move := (act (settle s c) (c :: rest)).1
  ((c :: rest.take move.more).map fun c => ⟨move.kind, c⟩).reverse

section Follows

variable {p q : Past} {n : Nat} {marks : Past} {s s' : State}

theorem Follows.beside (h : Follows p q n s s') : ∃ marks, Beside p q n marks s s' ∧
    (s.delimiter.isExplicit = true →
      q.lastInk? = p.lastInk? ∨ ∃ mark ∈ marks, isBlank mark.char = false) := by
  obtain ⟨marks, past, past', ink⟩ := h.past
  exact ⟨marks, ⟨h.modes, h.delimiter, h.inMata, h.since, past, past'⟩, ink⟩

theorem Beside.follows (h : Beside p q n marks s s')
    (ink : s.delimiter.isExplicit = true →
      q.lastInk? = p.lastInk? ∨ ∃ mark ∈ marks, isBlank mark.char = false) : Follows p q n s s' :=
  ⟨h.modes, h.delimiter, h.inMata, h.since, marks, h.past, h.past', ink⟩

theorem settle_beside (h : Beside p q n marks s s') (c : Char) :
    Beside p q n marks (settle s c) (settle s' c) where
  modes := settle_modes_congr h.modes h.delimiter c
  delimiter := by rw [settle_delimiter, settle_delimiter, h.delimiter]
  inMata := by rw [settle_inMata, settle_inMata, h.inMata]
  since := by rw [settle_explicitSince, settle_explicitSince, h.since]
  past := by rw [settle_past, h.past]
  past' := by rw [settle_past, h.past']

variable (alike : Past.Alike p q) (length : Text.byteLength q.text = Text.byteLength p.text + n)

include alike in
theorem Beside.pastsAlike (h : Beside p q n marks s s') : Past.Alike s.past s'.past := by
  rw [h.past, h.past']
  exact alike.append marks

include alike in
theorem act_beside (h : Beside p q n marks s s') {rest : Text} (slashes : SlashesAgree s s' rest) :
    act s' rest = act s rest :=
  act_congr h.modes h.delimiter h.inMata (h.pastsAlike alike) slashes

include alike in
theorem Follows.slashesAgree (h : Follows p q n s s') (rest : Text) : SlashesAgree s s' rest := by
  obtain ⟨marks, beside, ink⟩ := h.beside
  refine slashesAgree_of_ink h.modes (beside.pastsAlike alike) rest fun explicit => ?_
  rw [beside.past, beside.past']
  exact Past.lastInk?_append (ink explicit)

include length in
/-- A step that does the same in both adds the same marks to both. -/
theorem step_beside (h : Beside p q n marks s s') {c : Char} {rest : Text}
    (acts : act (settle s' c) (c :: rest) = act (settle s c) (c :: rest)) :
    Beside p q n (marksRead s c rest ++ marks) (step s c rest).1 (step s' c rest).1 ∧
      (step s' c rest).2 = (step s c rest).2 := by
  have settled := settle_beside h c
  unfold step marksRead
  dsimp only
  rw [acts]
  generalize c :: rest.take (act (settle s c) (c :: rest)).1.more = read
  generalize (act (settle s c) (c :: rest)).1.kind = kind
  refine ⟨⟨rfl, rfl, rfl, ?_, ?_, ?_⟩, rfl⟩
  · show sinceAfter (settle s' c).explicitSince _ _ ((settle s' c).past.extend kind read)
      = (sinceAfter (settle s c).explicitSince _ _ ((settle s c).past.extend kind read)).map (· + n)
    unfold sinceAfter
    rw [settled.delimiter, settled.since, settled.past, settled.past']
    split
    · rfl
    · split
      · rw [Option.map_some, Past.text_extend, Past.text_extend, Past.text_append, Past.text_append,
          Text.byteLength_append, Text.byteLength_append, Text.byteLength_append,
          Text.byteLength_append, length]
        congr 1
        omega
      · rfl
  · show (settle s c).past.extend kind read = _
    rw [Past.extend_eq, settled.past, List.append_assoc]
  · show (settle s' c).past.extend kind read = _
    rw [Past.extend_eq, settled.past', List.append_assoc]

/-- A step that enters the explicit mode has read ink. -/
theorem ink_of_step {c : Char} {rest : Text} (before : s.delimiter.isExplicit = false)
    (after : (step s c rest).1.delimiter.isExplicit = true) :
    ∃ mark ∈ marksRead s c rest, isBlank mark.char = false := by
  rw [← settle_delimiter s c] at before
  obtain ⟨d, m, hd⟩ := ink_of_entered before after
  exact ⟨⟨_, d⟩, List.mem_reverse.mpr (List.mem_map_of_mem m), hd⟩

include alike length in
theorem step_follows (h : Follows p q n s s') (c : Char) (rest : Text) :
    Follows p q n (step s c rest).1 (step s' c rest).1 ∧
      (step s' c rest).2 = (step s c rest).2 := by
  obtain ⟨marks, beside, ink⟩ := h.beside
  have settled := settle_beside beside c
  have agree : SlashesAgree (settle s c) (settle s' c) (c :: rest) :=
    (settled.follows (by rwa [settle_delimiter])).slashesAgree alike (c :: rest)
  obtain ⟨both, left⟩ := step_beside length beside (act_beside alike settled agree)
  refine ⟨both.follows fun after => ?_, left⟩
  by_cases before : s.delimiter.isExplicit = true
  · rcases ink before with same | ⟨mark, m, hm⟩
    · exact Or.inl same
    · exact Or.inr ⟨mark, List.mem_append_right _ m, hm⟩
  · obtain ⟨mark, m, hm⟩ := ink_of_step (Bool.eq_false_iff.mpr before) after
    exact Or.inr ⟨mark, List.mem_append_left _ m, hm⟩

include alike length in
/-- **Scanning goes on the same way,** whatever stands before, as long as it answers alike. -/
theorem run_follows (h : Follows p q n s s') (text : Text) :
    Follows p q n (run s text) (run s' text) := by
  fun_induction run s text generalizing s' with
  | case1 s =>
    rw [run]
    exact h
  | case2 s c rest next =>
    rename_i ih
    obtain ⟨follows, left⟩ := step_follows alike length h c rest
    rw [run, left]
    exact ih follows

end Follows

end Comments

end DoRunner
