import DoRunner.Proofs.Source.BareLine

/-!
# Blocks line by line

The block pass goes from character to character and keeps a stack. Where a text holds no string, it
comes to the same as a reading by lines (`BlockReading`): a line may open a block that an end line
closes, within such a block a line closes it or does not matter, and on every other line only the
braces count.

The pass is followed through one line at a time (`Tracks.wholeLine`). At the start of a line the reading
decides as the pass does at its first character, and then either the pass takes the whole line in
one step or the characters count one by one.
-/

namespace DoRunner

/-- The blocks that are open at some point of a text without strings. -/
inductive Nesting where
  /-- None. -/
  | root
  /-- So many braces. -/
  | braces (depth : Nat)
  /-- A block that an end line closes. -/
  | endBlock
deriving DecidableEq, Repr

namespace Nesting

/-- The number of open blocks. -/
def depth : Nesting → Nat
  | root => 0
  | braces depth => depth
  | endBlock => 1

/-- What is open behind one more character of a line on which braces count. A closing brace that
closes nothing does not matter. -/
def behind : Nesting → Char → Nesting
  | root, '\x7b' => braces 1
  | braces depth, '\x7b' => braces (depth + 1)
  | braces depth, '\x7d' => if 1 < depth then braces (depth - 1) else root
  | nesting, _ => nesting

/-- The stack of the block pass there. -/
def stack : Nesting → List Mode
  | root => []
  | braces depth => [.braceBlock depth]
  | endBlock => [.endBlock]

theorem openBlocks_stack (nesting : Nesting) :
    ModeStack.openBlocks ⟨nesting.stack⟩ = nesting.depth := by
  cases nesting <;> rfl

end Nesting

/-- How far a reading by lines has come. -/
structure BlockReading where
  /-- What is open. -/
  nesting : Nesting
  /-- Whether anything has been open so far. -/
  opened : Bool
deriving DecidableEq, Repr

namespace BlockReading

/-- Nothing has been read. -/
def initial : BlockReading := ⟨.root, false⟩

/-- The reading goes on with this open. -/
def enter (r : BlockReading) (nesting : Nesting) : BlockReading :=
  ⟨nesting, r.opened || nesting != .root⟩

/-- One more character of a line on which braces count. -/
def readChar (r : BlockReading) (c : Char) : BlockReading := r.enter (r.nesting.behind c)

/-- One more line. -/
def readLine (r : BlockReading) (line : Text) : BlockReading :=
  match r.nesting with
  | .root => if Line.opensEndBlock line then r.enter .endBlock else line.foldl readChar r
  | .endBlock => if Line.closesBlock line then r.enter .root else r
  | .braces _ => line.foldl readChar r

/-- All lines of a text. -/
def ofText (text : Text) : BlockReading := (Text.lines text).foldl readLine initial

end BlockReading

namespace Blocks

/-- The pass is where the reading is. -/
structure Tracks (s : State) (r : BlockReading) : Prop where
  /-- The same is open. -/
  stack : s.modes.entered = r.nesting.stack
  /-- Braces that are all closed are not open. -/
  braces : r.nesting ≠ .braces 0
  /-- Something belongs to a block if anything has been open. -/
  opened : (s.past.any fun mark => mark.kind == .blockBody) = r.opened
  /-- What is open has been opened. -/
  inBlock : r.nesting ≠ .root → r.opened = true

theorem tracks_initial : Tracks .initial .initial where
  stack := rfl
  braces := by decide
  opened := rfl
  inBlock := fun inside => absurd rfl inside

section Steps

variable {s : State} {r : BlockReading} (h : Tracks s r) {c : Char} {rest : Text}

include h

/-- No string is left at the end of a line. -/
theorem Tracks.settle (next : Char) : settle s next = s := by
  have top : s.modes.top ≠ .plainString := by
    rw [ModeStack.top, h.stack]
    cases r.nesting <;> simp [Nesting.stack]
  unfold Blocks.settle
  rw [if_neg fun both => top both.1]

/-- A step that reads part of a block. -/
theorem Tracks.enter {s' : State} {nesting : Nesting} {past : Past} {chars : Text}
    (stack : s'.modes.entered = nesting.stack) (braces : nesting ≠ .braces 0)
    (read : s'.past = past.extend .blockBody (c :: chars))
    (inBlock : r.nesting ≠ .root ∨ nesting ≠ .root) : Tracks s' (r.enter nesting) := by
  have opened : (r.enter nesting).opened = true := by
    rw [BlockReading.enter, Bool.or_eq_true]
    rcases inBlock with before | after
    · exact Or.inl (h.inBlock before)
    · exact Or.inr (bne_iff_ne.mpr after)
  refine ⟨stack, braces, ?_, fun _ => opened⟩
  obtain ⟨mark, first, kind⟩ := Past.head?_extend past .blockBody c chars
  rw [opened, read, List.any_eq_true]
  exact ⟨mark, List.mem_of_head? first, beq_iff_eq.mpr kind⟩

/-- A step that changes nothing. -/
theorem Tracks.stay {kind : TokenKind} (outside : r.nesting = .root → kind ≠ .blockBody)
    (inside : r.nesting ≠ .root → kind = .blockBody) : Tracks ⟨s.modes, ⟨kind, c⟩ :: s.past⟩ r := by
  refine ⟨h.stack, h.braces, ?_, h.inBlock⟩
  show (kind == .blockBody || s.past.any fun mark => mark.kind == .blockBody) = r.opened
  rw [h.opened]
  by_cases root : r.nesting = .root
  · simp [outside root]
  · simp [inside root, h.inBlock root]

/-- **A line feed** opens and closes nothing. -/
theorem Tracks.lf : ∃ s', step s '\n' rest = (s', rest) ∧ Tracks s' r ∧ s'.past.atLineStart = true := by
  have quote (past : Past) : Quote.opens? past ('\n' :: rest) = none :=
    Quote.opens?_of_isBlank (by decide) rest past
  have settled := h.settle '\n'
  obtain ⟨⟨entered⟩, past⟩ := s
  cases nesting : r.nesting with
  | root =>
    obtain rfl : entered = [] := by simpa [nesting, Nesting.stack] using h.stack
    have moves : act ⟨⟨[]⟩, past⟩ ('\n' :: rest) = ⟨.newlineDelimiter, 0, ⟨[]⟩, false⟩ := by
      show rootMove _ _ = _
      rw [rootMove_cons, quote, if_neg]
      · rfl
      · rintro ⟨-, opens⟩
        rw [Text.firstLine_lf] at opens
        exact absurd opens (by decide)
    exact ⟨_, step_eq_of_act settled moves, h.stay (by simp) (fun inside => absurd nesting inside), rfl⟩
  | braces depth =>
    obtain rfl : entered = [.braceBlock depth] := by simpa [nesting, Nesting.stack] using h.stack
    have moves : act ⟨⟨[.braceBlock depth]⟩, past⟩ ('\n' :: rest)
        = ⟨.blockBody, 0, ⟨[.braceBlock depth]⟩, false⟩ := by
      show braceMove ⟨⟨[.braceBlock depth]⟩, past⟩ ('\n' :: rest) = _
      rw [braceMove_cons, quote]
      rfl
    exact ⟨_, step_eq_of_act settled moves,
      h.stay (fun root => absurd (nesting.symm.trans root) (by simp)) (fun _ => rfl), rfl⟩
  | endBlock =>
    obtain rfl : entered = [.endBlock] := by simpa [nesting, Nesting.stack] using h.stack
    have moves : act ⟨⟨[.endBlock]⟩, past⟩ ('\n' :: rest) = ⟨.blockBody, 0, ⟨[.endBlock]⟩, false⟩ := by
      show endBlockMove _ _ = _
      rw [endBlockMove, quote, if_neg]
      rintro ⟨-, closes⟩
      rw [Text.firstLine_lf] at closes
      exact absurd closes (by decide)
    exact ⟨_, step_eq_of_act settled moves,
      h.stay (fun root => absurd (nesting.symm.trans root) (by simp)) (fun _ => rfl), rfl⟩

section Char

variable (noQuote : '"' ∉ c :: rest) (hc : c ≠ '\n')

include noQuote hc

/-- **A character outside everything,** unless it starts a line that opens a block. -/
theorem Tracks.rootChar (root : r.nesting = .root)
    (plain : s.past.atLineStart = true → Line.opensEndBlock (Text.firstLine (c :: rest)) = false) :
    ∃ s', step s c rest = (s', rest) ∧ Tracks s' (r.readChar c) ∧ s'.past.atLineStart = false := by
  have settled := h.settle c
  have inLine : (c == '\n') = false := by simpa using hc
  obtain ⟨⟨entered⟩, past⟩ := s
  obtain rfl : entered = [] := by simpa [root, Nesting.stack] using h.stack
  have moves : act ⟨⟨[]⟩, past⟩ (c :: rest)
      = if c = '\x7b' then ⟨.blockBody, 0, ⟨[.braceBlock 1]⟩, true⟩
        else ⟨.plainText, 0, ⟨[]⟩, false⟩ := by
    show rootMove _ _ = _
    rw [rootMove_cons, Quote.opens?_of_notMem noQuote, if_neg]
    · dsimp only
      rw [if_neg hc]
      rfl
    · rintro ⟨start, opens⟩
      rw [plain start] at opens
      exact absurd opens (by decide)
  by_cases brace : c = '\x7b'
  · subst brace
    rw [if_pos rfl] at moves
    refine ⟨⟨⟨[.braceBlock 1]⟩, (past.remarkLine .blockBody).extend .blockBody ['\x7b']⟩, ?_, ?_, rfl⟩
    · unfold step
      rw [settled]
      dsimp only
      rw [moves]
      rfl
    · rw [BlockReading.readChar, root]
      exact h.enter rfl (by simp [Nesting.behind]) rfl (Or.inr (by simp [Nesting.behind]))
  · rw [if_neg brace] at moves
    have same : r.readChar c = r := by
      have unmoved : Nesting.behind .root c = .root := by simp [Nesting.behind, brace]
      obtain ⟨nesting, opened⟩ := r
      obtain rfl : nesting = .root := root
      simp [BlockReading.readChar, BlockReading.enter, unmoved]
    rw [same]
    exact ⟨_, step_eq_of_act settled moves, h.stay (by simp) (fun inside => absurd root inside), inLine⟩

/-- **A character between braces.** -/
theorem Tracks.braceChar {depth : Nat} (nesting : r.nesting = .braces depth) :
    ∃ s', step s c rest = (s', rest) ∧ Tracks s' (r.readChar c) ∧ s'.past.atLineStart = false := by
  have settled := h.settle c
  have inLine : (c == '\n') = false := by simpa using hc
  have inside : r.nesting ≠ .root := by simp [nesting]
  have positive : depth ≠ 0 := by
    rintro rfl
    exact h.braces nesting
  obtain ⟨⟨entered⟩, past⟩ := s
  obtain rfl : entered = [.braceBlock depth] := by simpa [nesting, Nesting.stack] using h.stack
  have moves : act ⟨⟨[.braceBlock depth]⟩, past⟩ (c :: rest)
      = ⟨.blockBody, 0, ⟨(Nesting.behind (.braces depth) c).stack⟩, false⟩ := by
    show braceMove _ _ = _
    rw [braceMove_cons, Quote.opens?_of_notMem noQuote]
    dsimp only
    by_cases opens : c = '\x7b'
    · subst opens
      rfl
    by_cases closes : c = '\x7d'
    · subst closes
      rw [if_neg opens, if_pos rfl, Nesting.behind, ModeStack.pop]
      dsimp only
      rw [ModeStack.shallower]
      by_cases deeper : 1 < depth
      · rw [if_pos deeper, if_pos deeper]
        rfl
      · rw [if_neg deeper, if_neg deeper]
        rfl
    · have unmoved : Nesting.behind (.braces depth) c = .braces depth := by
        simp [Nesting.behind, opens, closes]
      rw [if_neg opens, if_neg closes, unmoved]
      rfl
  refine ⟨_, step_eq_of_act settled moves, ?_, inLine⟩
  rw [BlockReading.readChar, nesting]
  have still : past.extend .blockBody [c] = ⟨.blockBody, c⟩ :: past := rfl
  rw [← still]
  refine h.enter rfl ?_ rfl (Or.inl inside)
  unfold Nesting.behind
  split <;> grind

/-- **A character in a block that an end line closes,** unless it starts that line. -/
theorem Tracks.endChar (nesting : r.nesting = .endBlock)
    (plain : s.past.atLineStart = true → Line.closesBlock (Text.firstLine (c :: rest)) = false) :
    ∃ s', step s c rest = (s', rest) ∧ Tracks s' r ∧ s'.past.atLineStart = false := by
  have settled := h.settle c
  have inLine : (c == '\n') = false := by simpa using hc
  obtain ⟨⟨entered⟩, past⟩ := s
  obtain rfl : entered = [.endBlock] := by simpa [nesting, Nesting.stack] using h.stack
  have moves : act ⟨⟨[.endBlock]⟩, past⟩ (c :: rest) = ⟨.blockBody, 0, ⟨[.endBlock]⟩, false⟩ := by
    show endBlockMove _ _ = _
    rw [endBlockMove, Quote.opens?_of_notMem noQuote, if_neg]
    rintro ⟨start, closes⟩
    rw [plain start] at closes
    exact absurd closes (by decide)
  exact ⟨_, step_eq_of_act settled moves,
    h.stay (fun root => absurd (nesting.symm.trans root) (by simp)) (fun _ => rfl), inLine⟩

end Char

end Steps

/-! ## Lines -/

section Line

variable {line t : Text} (noQuote : '"' ∉ line ++ t) (oneLine : '\n' ∉ line)

include noQuote oneLine

/-- **On a line on which braces count,** the characters are read one by one. -/
theorem Tracks.chars {s : State} {r : BlockReading} (h : Tracks s r) (counts : r.nesting ≠ .endBlock)
    (plain : s.past.atLineStart = true → r.nesting = .root →
      Line.opensEndBlock (Text.firstLine (line ++ t)) = false) :
    ∃ s', run s (line ++ t) = run s' t ∧ Tracks s' (line.foldl BlockReading.readChar r) := by
  induction line generalizing s r with
  | nil => exact ⟨s, rfl, h⟩
  | cons c line ih =>
    have hc : c ≠ '\n' := fun e => oneLine (e ▸ List.mem_cons_self)
    obtain ⟨s', stepped, tracks, inLine⟩ : ∃ s', step s c (line ++ t) = (s', line ++ t) ∧
        Tracks s' (r.readChar c) ∧ s'.past.atLineStart = false := by
      cases nesting : r.nesting with
      | root => exact h.rootChar noQuote hc nesting fun start => plain start nesting
      | braces depth => exact h.braceChar noQuote hc nesting
      | endBlock => exact absurd nesting counts
    have counts' : (r.readChar c).nesting ≠ .endBlock := by
      show r.nesting.behind c ≠ .endBlock
      unfold Nesting.behind
      split <;> grind
    rw [List.cons_append, run_cons, stepped]
    refine ih (fun m => noQuote (List.mem_cons_of_mem c m)) (fun m => oneLine (List.mem_cons_of_mem c m))
      tracks counts' fun start => ?_
    rw [inLine] at start
    exact absurd start (by decide)

/-- **A line within a block that an end line closes** does not matter. -/
theorem Tracks.skipped {s : State} {r : BlockReading} (h : Tracks s r) (nesting : r.nesting = .endBlock)
    (plain : s.past.atLineStart = true → Line.closesBlock (Text.firstLine (line ++ t)) = false) :
    ∃ s', run s (line ++ t) = run s' t ∧ Tracks s' r := by
  induction line generalizing s with
  | nil => exact ⟨s, rfl, h⟩
  | cons c line ih =>
    have hc : c ≠ '\n' := fun e => oneLine (e ▸ List.mem_cons_self)
    obtain ⟨s', stepped, tracks, inLine⟩ : ∃ s', step s c (line ++ t) = (s', line ++ t) ∧
        Tracks s' r ∧ s'.past.atLineStart = false := h.endChar noQuote hc nesting plain
    rw [List.cons_append, run_cons, stepped]
    refine ih (fun m => noQuote (List.mem_cons_of_mem c m)) (fun m => oneLine (List.mem_cons_of_mem c m))
      tracks fun start => ?_
    rw [inLine] at start
    exact absurd start (by decide)

omit noQuote in
/-- **A line that is read in one step** belongs to the block that it opens or closes. -/
theorem Tracks.atOnce {s : State} {r : BlockReading} (h : Tracks s r) {nesting : Nesting}
    (braces : nesting ≠ .braces 0) (inBlock : r.nesting ≠ .root ∨ nesting ≠ .root)
    (ends : Text.firstLine (line ++ t) = line) (nonempty : line ≠ [])
    (moves : act s (line ++ t) = lineMove (line ++ t) ⟨nesting.stack⟩) :
    ∃ s', run s (line ++ t) = run s' t ∧ Tracks s' (r.enter nesting) := by
  cases line with
  | nil => exact absurd rfl nonempty
  | cons c line =>
    have hc : c ≠ '\n' := fun e => oneLine (e ▸ List.mem_cons_self)
    rw [List.cons_append, Text.firstLine_cons_of_ne hc] at ends
    have settled := h.settle c
    have stepped := step_lineMove rfl (List.cons.inj ends).2 (by rw [settled]; exact moves)
    rw [settled] at stepped
    rw [List.cons_append, run_cons, stepped]
    exact ⟨_, rfl, h.enter rfl braces rfl inBlock⟩

/-- **A line is read as a whole.** -/
theorem Tracks.wholeLine {s : State} {r : BlockReading} (h : Tracks s r)
    (start : s.past.atLineStart = true) (ends : Text.firstLine (line ++ t) = line) :
    ∃ s', run s (line ++ t) = run s' t ∧ Tracks s' (r.readLine line) := by
  have nonempty {special : Text → Bool} (blank : special [] = false) (found : special line = true) :
      line ≠ [] := by
    rintro rfl
    rw [blank] at found
    exact absurd found (by decide)
  unfold BlockReading.readLine
  cases nesting : r.nesting with
  | root =>
    dsimp only
    by_cases opens : Line.opensEndBlock line = true
    · rw [if_pos opens]
      refine h.atOnce oneLine (by simp) (Or.inr (by simp)) ends (nonempty (by decide) opens) ?_
      have modes : s.modes = ⟨[]⟩ := congrArg ModeStack.mk (h.stack.trans (by rw [nesting]; rfl))
      unfold act
      rw [modes]
      show rootMove s (line ++ t) = _
      unfold rootMove
      rw [if_pos ⟨start, by rwa [ends]⟩, modes]
      rfl
    · rw [if_neg opens]
      refine h.chars noQuote oneLine (by simp [nesting]) fun _ _ => ?_
      rwa [ends, ← Bool.not_eq_true]
  | braces depth =>
    exact h.chars noQuote oneLine (by simp [nesting]) fun _ root => absurd (nesting.symm.trans root) (by simp)
  | endBlock =>
    dsimp only
    by_cases closes : Line.closesBlock line = true
    · rw [if_pos closes]
      refine h.atOnce oneLine (by simp) (Or.inl (by simp [nesting])) ends (nonempty (by decide) closes) ?_
      have modes : s.modes = ⟨[.endBlock]⟩ :=
        congrArg ModeStack.mk (h.stack.trans (by rw [nesting]; rfl))
      unfold act
      rw [modes]
      show endBlockMove s (line ++ t) = _
      rw [endBlockMove, if_pos ⟨start, by rwa [ends]⟩, modes]
      rfl
    · rw [if_neg closes]
      refine h.skipped noQuote oneLine nesting fun _ => ?_
      rwa [ends, ← Bool.not_eq_true]

end Line

/-- **All lines.** -/
theorem Tracks.lines {s : State} {r : BlockReading} (h : Tracks s r)
    (start : s.past.atLineStart = true) {ls : List Text} (noQuote : '"' ∉ Text.unlines ls)
    (oneLine : ∀ line ∈ ls, '\n' ∉ line) :
    Tracks (run s (Text.unlines ls)) (ls.foldl BlockReading.readLine r) := by
  induction ls generalizing s r with
  | nil =>
    rw [Text.unlines, run]
    exact h
  | cons line ls ih =>
    have single := oneLine line List.mem_cons_self
    cases ls with
    | nil =>
      have noMore : Text.unlines [line] = line ++ [] := (List.append_nil line).symm
      rw [noMore] at noQuote ⊢
      have ends : Text.firstLine (line ++ []) = line := by
        rw [List.append_nil, Text.firstLine_of_notMem single]
      obtain ⟨s', goesOn, tracks⟩ := h.wholeLine noQuote single start ends
      rw [goesOn, run]
      exact tracks
    | cons next more =>
      rw [Text.unlines] at noQuote ⊢
      obtain ⟨s', goesOn, tracks⟩ := h.wholeLine noQuote single start (Text.firstLine_append_lf single _)
      obtain ⟨s'', stepped, tracks', start'⟩ := @Tracks.lf s' _ tracks (Text.unlines (next :: more))
      rw [goesOn, run_cons, stepped]
      refine ih tracks' start' (fun m => noQuote ?_) (fun l m => oneLine l (List.mem_cons_of_mem _ m))
      exact List.mem_append_right _ (List.mem_cons_of_mem _ m)

end Blocks

/-- **Blocks nest as a reading by lines says.** In a text without double quotes the block pass finds
as many blocks open at the end as the reading, and it finds a block at all if the reading does. -/
theorem scanBlocks_nesting {text : Text} (noQuote : '"' ∉ text) :
    (scanBlocks text).openBlocks = (BlockReading.ofText text).nesting.depth ∧
    ((scanBlocks text).hasBlock = true ↔ (BlockReading.ofText text).opened = true) := by
  have tracks : Blocks.Tracks (Blocks.run .initial text) (BlockReading.ofText text) := by
    have noQuote' : '"' ∉ Text.unlines (Text.lines text) := by rwa [Text.unlines_lines]
    have read := Blocks.tracks_initial.lines rfl noQuote' fun line m => Text.notMem_of_mem_lines m
    rwa [Text.unlines_lines] at read
  constructor
  · have modes : (Blocks.run .initial text).modes = ⟨(BlockReading.ofText text).nesting.stack⟩ :=
      congrArg ModeStack.mk tracks.stack
    show (Blocks.run .initial text).modes.openBlocks = _
    rw [modes, Nesting.openBlocks_stack]
  · rw [← tracks.opened]
    show ((Blocks.run .initial text).past.reverse.any _) = true ↔ _
    rw [List.any_reverse]

/-- A brace too many closes nothing, a block closes and opens on one line, and what looks like the
start of a program between braces is none. -/
theorem scanBlocks_nesting_reopened :
    let text := "\x7d\nmata:\n\x7b\nend\nif x \x7b\nprogram p\n\x7d else \x7b\n\x7b\n\x7d\nend".toList
    '"' ∉ text ∧ (scanBlocks text).openBlocks = 1 ∧ (scanBlocks text).hasBlock = true := by
  have plain : '"' ∉ "\x7d\nmata:\n\x7b\nend\nif x \x7b\nprogram p\n\x7d else \x7b\n\x7b\n\x7d\nend".toList := by decide
  obtain ⟨depth, opened⟩ := scanBlocks_nesting plain
  exact ⟨plain, depth.trans (by decide +kernel), opened.mpr (by decide +kernel)⟩

end DoRunner
