import DoRunner.Proofs.Source.BlockPass
import DoRunner.Proofs.Source.Collecting

/-!
# The tokens of the block pass

The pass goes back on its marks, but only on those of the line it is on, and then it gives all of
them to a block. So the marks of a block always reach back to where a line starts (`Joined`), through
every remarking (`step_sound`), and a line cannot hold marks of two blocks that something separates.
-/

namespace DoRunner

namespace Blocks

/-! ## Stacks -/

/-- The blocks that the pass can be inside of. Neither kind stands in the other. -/
inductive Around : List Mode → Prop where
  | nothing : Around []
  | braces (outer : Nat) : Around [.braceBlock (outer + 1)]
  | endBlock : Around [.endBlock]

/-- The stacks that the block pass meets: a string may stand in a block, nothing in a string. -/
inductive BlockStack : List Mode → Prop where
  | outside {blocks : List Mode} (around : Around blocks) : BlockStack blocks
  | plainString {blocks : List Mode} (around : Around blocks) : BlockStack (.plainString :: blocks)
  | compoundString (outer : Nat) {blocks : List Mode} (around : Around blocks) :
      BlockStack (.compoundString (outer + 1) :: blocks)

theorem openBlocks_cons (mode : Mode) (entered : List Mode) :
    ModeStack.openBlocks ⟨mode :: entered⟩ = mode.blocks + ModeStack.openBlocks ⟨entered⟩ := rfl

/-- A string that opens leaves the blocks as they are. -/
theorem stack_opens? {modes : ModeStack} (h : Around modes.entered) {past : Past} {rest : Text}
    {mode : Mode} {more : Nat} (opens : Quote.opens? past rest = some (mode, more)) :
    BlockStack (modes.push mode).entered ∧ (modes.push mode).openBlocks = modes.openBlocks := by
  have string : mode = .compoundString 1 ∨ mode = .plainString :=
    (Quote.opens?_cases opens).imp And.left And.left
  have pushed : (modes.push mode).entered = mode :: modes.entered := by
    obtain ⟨entered⟩ := modes
    rcases string with rfl | rfl <;> cases h <;> rfl
  have blocks : mode.blocks = 0 := by
    rcases string with rfl | rfl <;> rfl
  constructor
  · rw [pushed]
    rcases string with rfl | rfl
    · exact .compoundString 0 h
    · exact .plainString h
  · rw [show modes.push mode = ⟨mode :: modes.entered⟩ from congrArg ModeStack.mk pushed,
      openBlocks_cons, blocks, Nat.zero_add]

/-- A step in a string leaves the blocks as they are. -/
theorem stack_step {modes : ModeStack} (h : BlockStack modes.entered)
    (string : modes.top.isString = true) (rest : Text) :
    BlockStack (Quote.step modes rest).1.entered ∧
      (Quote.step modes rest).1.openBlocks = modes.openBlocks := by
  obtain ⟨entered⟩ := modes
  unfold ModeStack.openBlocks
  cases h with
  | outside around => cases around <;> exact absurd string Bool.false_ne_true
  | @plainString blocks around =>
    rcases Quote.entered_plainString blocks rest with inside | left
    · rw [inside]
      exact ⟨.plainString around, rfl⟩
    · rw [left]
      exact ⟨.outside around, (Nat.zero_add _).symm⟩
  | @compoundString outer blocks around =>
    rcases Quote.entered_compoundString outer blocks rest with ⟨outer', inside⟩ | left
    · rw [inside]
      exact ⟨.compoundString outer' around, rfl⟩
    · rw [left]
      exact ⟨.outside around, (Nat.zero_add _).symm⟩

/-! ## Moves -/

/-- What is true of every move. -/
structure Fits (s : State) (move : Move) : Prop where
  stack : BlockStack move.modes.entered
  marks : move.kind ≠ .semicolonDelimiter
  /-- What is read while a block is open belongs to it. -/
  inside : 0 < move.modes.openBlocks → move.kind = .blockBody
  /-- What belongs to a block follows on it, or starts a line, or claims what the line has so far. -/
  begins : move.kind = .blockBody →
    move.claimsLine = true ∨ s.past.atLineStart = true ∨ 0 < s.modes.openBlocks

section Moves

variable {s : State} (c : Char) (rest : Text)

/-- In a block everything is read as part of it. -/
theorem fits_of_open (inBlock : 0 < s.modes.openBlocks) {more : Nat} {modes : ModeStack}
    (stack : BlockStack modes.entered) : Fits s ⟨.blockBody, more, modes, false⟩ where
  stack := stack
  marks := by simp
  inside := fun _ => rfl
  begins := fun _ => .inr (.inr inBlock)

theorem rootMove_fits (h : s.modes.entered = []) : Fits s (rootMove s (c :: rest)) := by
  have closed : s.modes.openBlocks = 0 := by rw [ModeStack.openBlocks, h, List.foldr_nil]
  have around : Around s.modes.entered := h ▸ .nothing
  have pushed (mode : Mode) : (s.modes.push mode).entered = [mode] := by
    unfold ModeStack.push
    rw [h]
  have apart {kind : TokenKind} {modes : ModeStack} {more : Nat} (stack : BlockStack modes.entered)
      (none : modes.openBlocks = 0) (outside : kind ≠ .blockBody)
      (marks : kind ≠ .semicolonDelimiter) : Fits s ⟨kind, more, modes, false⟩ :=
    ⟨stack, marks, fun inBlock => absurd inBlock (by rw [none]; exact Nat.lt_irrefl 0),
      fun block => absurd block outside⟩
  rw [rootMove_cons]
  split
  · -- an end block opens where the line starts
    rename_i opens
    exact ⟨by rw [lineMove, pushed]; exact .outside .endBlock, by simp [lineMove], fun _ => rfl,
      fun _ => .inr (.inl opens.1)⟩
  · split
    · rename_i mode more opens
      obtain ⟨stack, blocks⟩ := stack_opens? around opens
      exact apart stack (blocks.trans closed) (by decide) (by decide)
    · split
      · -- a brace claims the line
        exact ⟨by rw [pushed]; exact .outside (.braces 0), by simp, fun _ => rfl, fun _ => .inl rfl⟩
      · split
        · exact apart (.outside around) closed (by decide) (by decide)
        · exact apart (.outside around) closed (by decide) (by decide)

theorem braceMove_fits {outer : Nat} (h : s.modes.entered = [.braceBlock (outer + 1)]) :
    Fits s (braceMove s (c :: rest)) := by
  obtain ⟨⟨entered⟩, past⟩ := s
  obtain rfl : entered = _ := h
  have inBlock : 0 < ModeStack.openBlocks ⟨[.braceBlock (outer + 1)]⟩ := Nat.succ_pos _
  rw [braceMove_cons]
  split
  · rename_i mode more opens
    exact fits_of_open inBlock (stack_opens? (.braces outer) opens).1
  · split
    · exact fits_of_open inBlock (.outside (.braces (outer + 1)))
    · split
      · refine fits_of_open inBlock (.outside ?_)
        cases outer with
        | zero => exact .nothing
        | succ outer => exact .braces outer
      · exact fits_of_open inBlock (.outside (.braces outer))

theorem endBlockMove_fits (h : s.modes.entered = [.endBlock]) :
    Fits s (endBlockMove s (c :: rest)) := by
  obtain ⟨⟨entered⟩, past⟩ := s
  obtain rfl : entered = _ := h
  have inBlock : 0 < ModeStack.openBlocks ⟨[.endBlock]⟩ := Nat.one_pos
  unfold endBlockMove
  split
  · exact fits_of_open inBlock (.outside .nothing)
  · split
    · rename_i mode more opens
      exact fits_of_open inBlock (stack_opens? .endBlock opens).1
    · exact fits_of_open inBlock (.outside .endBlock)

theorem stringMove_fits (h : BlockStack s.modes.entered) (string : s.modes.top.isString = true) :
    Fits s (stringMove s (c :: rest)) := by
  obtain ⟨stack, blocks⟩ := stack_step h string (c :: rest)
  refine ⟨stack, ?_, ?_, ?_⟩
  · unfold stringMove
    dsimp only
    split <;> decide
  · intro inBlock
    exact if_pos (decide_eq_true inBlock)
  · intro block
    by_contra apart
    have closed : (Quote.step s.modes (c :: rest)).1.inBlock = false := by
      rw [ModeStack.inBlock, blocks]
      exact decide_eq_false fun inBlock => apart (.inr (.inr inBlock))
    have kind : (stringMove s (c :: rest)).kind = .stringLiteral := by
      unfold stringMove
      dsimp only
      rw [closed]
      rfl
    rw [kind] at block
    exact absurd block (by decide)

theorem act_fits (h : BlockStack s.modes.entered) : Fits s (act s (c :: rest)) := by
  obtain ⟨⟨entered⟩, past⟩ := s
  have stack := h
  cases h with
  | outside around =>
    cases around with
    | nothing => exact rootMove_fits c rest rfl
    | braces outer => exact braceMove_fits c rest rfl
    | endBlock => exact endBlockMove_fits c rest rfl
  | plainString around => exact stringMove_fits c rest stack rfl
  | compoundString outer around => exact stringMove_fits c rest stack rfl

end Moves

/-! ## Marks -/

/-- Two marks in a row may stand so: what is before the marks of a block, if it is not of a block
itself, ends a line. -/
def Joined (newer older : Mark) : Prop :=
  newer.kind = .blockBody → older.kind = .blockBody ∨ older.char = '\n'

/-- Remarking stops at the end of the line before. -/
theorem char_of_head?_dropWhile {past : Past} {mark : Mark}
    (h : mark ∈ (past.dropWhile fun mark => mark.char != '\n').head?) : mark.char = '\n' := by
  have stops := List.head?_dropWhile_not (fun mark : Mark => mark.char != '\n') past
  rw [Option.mem_def.mp h] at stops
  simpa using stops

theorem mem_remarkLine {past : Past} {mark : Mark} (h : mark ∈ past.remarkLine .blockBody) :
    mark.kind = .blockBody ∨ mark ∈ past := by
  rcases List.mem_append.mp h with h | h
  · obtain ⟨_, -, rfl⟩ := List.mem_map.mp h
    exact .inl rfl
  · exact .inr ((List.dropWhile_suffix _).subset h)

theorem head?_remarkLine {past : Past} {mark : Mark}
    (h : mark ∈ (past.remarkLine .blockBody).head?) : mark.kind = .blockBody ∨ mark.char = '\n' := by
  rw [Past.remarkLine, List.head?_append] at h
  cases line : past.takeWhile fun mark => mark.char != '\n' with
  | nil =>
    rw [line] at h
    exact .inr (char_of_head?_dropWhile h)
  | cons first before =>
    rw [line] at h
    rw [← Option.some.inj h]
    exact .inl rfl

theorem isChain_remarkLine {past : Past} (h : past.IsChain Joined) :
    (past.remarkLine .blockBody).IsChain Joined := by
  refine List.isChain_append.mpr ⟨?_, h.suffix (List.dropWhile_suffix _), ?_⟩
  · refine (List.isChain_map _).mpr (.imp ?_ (List.pairwise_of_forall fun _ _ => trivial).isChain)
    exact fun newer older _ _ => .inl rfl
  · exact fun newer _ older first _ => .inr (char_of_head?_dropWhile first)

theorem isChain_extend {past : Past} (h : past.IsChain Joined) (kind : TokenKind) (chars : Text)
    (begins : kind = .blockBody → ∀ older ∈ past.head?, older.kind = .blockBody ∨ older.char = '\n') :
    (past.extend kind chars).IsChain Joined := by
  induction chars generalizing past with
  | nil => exact h
  | cons c chars ih =>
    refine ih (List.isChain_cons.mpr ⟨fun older first block => begins block older first, h⟩) ?_
    intro block older first
    rw [← Option.some.inj first]
    exact .inl block

/-! ## Runs -/

/-- What is true of every state that the pass comes by. -/
structure Sound (s : State) : Prop where
  stack : BlockStack s.modes.entered
  /-- While a block is open the last that was read belongs to it. -/
  inside : 0 < s.modes.openBlocks → ∃ mark ∈ s.past.head?, mark.kind = .blockBody
  joined : s.past.IsChain Joined
  marks : ∀ mark ∈ s.past, mark.kind ≠ .semicolonDelimiter

theorem sound_initial : Sound .initial where
  stack := .outside .nothing
  inside := fun inBlock => absurd inBlock (Nat.lt_irrefl 0)
  joined := .nil
  marks := fun _ m => absurd m List.not_mem_nil

/-- A plain string is left, and the blocks around it are what they were. -/
theorem settle_stack {s : State} (h : BlockStack s.modes.entered) (next : Char) :
    BlockStack (settle s next).modes.entered ∧
      (settle s next).modes.openBlocks = s.modes.openBlocks := by
  unfold settle
  split
  · rename_i found
    obtain ⟨⟨entered⟩, past⟩ := s
    cases h with
    | outside around => cases around <;> exact absurd found.1 (by simp [ModeStack.top])
    | plainString around => exact ⟨.outside around, (Nat.zero_add _).symm⟩
    | compoundString outer around => exact absurd found.1 (by simp [ModeStack.top])
  · exact ⟨h, rfl⟩

theorem settle_past (s : State) (next : Char) : (settle s next).past = s.past := by
  unfold settle
  split <;> rfl

theorem settle_sound {s : State} (h : Sound s) (next : Char) : Sound (settle s next) := by
  obtain ⟨stack, blocks⟩ := settle_stack h.stack next
  have past := settle_past s next
  exact ⟨stack, by rw [blocks, past]; exact h.inside, by rw [past]; exact h.joined,
    by rw [past]; exact h.marks⟩

/-- **A step leaves a sound state,** whether or not it marks the line anew. -/
theorem step_sound {s : State} (h : Sound s) (c : Char) (rest : Text) :
    Sound (step s c rest).1 := by
  obtain ⟨stack, inside, joined, marks⟩ := settle_sound h c
  have fits := act_fits c rest stack
  unfold step
  dsimp only
  generalize settle s c = s at *
  generalize act s (c :: rest) = move at *
  refine ⟨fits.stack, ?_, ?_, ?_⟩
  · intro inBlock
    rw [← fits.inside inBlock]
    exact Past.head?_extend _ _ c _
  · by_cases claims : move.claimsLine = true
    · rw [if_pos claims]
      exact isChain_extend (isChain_remarkLine joined) _ _ fun _ older first => head?_remarkLine first
    · rw [if_neg claims]
      refine isChain_extend joined _ _ fun block older first => ?_
      rcases fits.begins block with claims' | start | inBlock
      · exact absurd claims' claims
      · -- the move starts a line, so what is behind it ends one
        cases behind : s.past with
        | nil =>
          rw [behind] at first
          exact absurd first (by simp)
        | cons mark past =>
          rw [behind] at first start
          rw [← Option.some.inj first]
          exact .inr (beq_iff_eq.mp start)
      · obtain ⟨mark, last, kind⟩ := inside inBlock
        rw [Option.mem_unique first last]
        exact .inl kind
  · intro mark m
    rcases Past.mem_extend m with kind | m
    · rw [kind]
      exact fits.marks
    · split at m
      · rcases mem_remarkLine m with kind | m
        · rw [kind]
          simp
        · exact marks mark m
      · exact marks mark m

theorem run_sound {s : State} (h : Sound s) (text : Text) : Sound (run s text) := by
  fun_induction run s text with
  | case1 s => exact h
  | case2 s c rest next ih => exact ih (step_sound h c rest)

/-! ## Tokens -/

/-- What a step reads is collected as of the kind that it is marked with, behind the line so far,
which is collected anew where the step claims it. -/
def collect (tokens : Collected) (s : State) (c : Char) (rest : Text) : Collected :=
  let move := act (settle s c) (c :: rest)
  let before := if move.claimsLine then tokens.retagLine .blockBody else tokens
  before.push move.kind (c :: rest.take move.more) (.ofNat (Text.byteLength s.past.text))
    (.ofNat (Text.byteLength (step s c rest).1.past.text))

/-- A line feed that ends a statement is read by itself. -/
theorem more_act_of_isDelimiter {s : State} {text : Text}
    (h : (act s text).kind.isDelimiter = true) : (act s text).more = 0 := by
  have string : (stringMove s text).kind.isDelimiter = false := by
    unfold stringMove
    dsimp only
    split <;> rfl
  have braces : (braceMove s text).kind = .blockBody := by
    unfold braceMove
    split
    · rfl
    · split <;> rfl
  have endBlock : (endBlockMove s text).kind = .blockBody := by
    unfold endBlockMove
    split
    · rfl
    · split <;> rfl
  unfold act at h ⊢
  split at h
  · rw [string] at h
    exact absurd h (by decide)
  · rw [string] at h
    exact absurd h (by decide)
  · rw [braces] at h
    exact absurd h (by decide)
  · rw [endBlock] at h
    exact absurd h (by decide)
  · unfold rootMove at h ⊢
    split at h
    · exact absurd h Bool.false_ne_true
    · rename_i inside
      rw [if_neg inside]
      split at h
      · exact absurd h Bool.false_ne_true
      · split <;> rfl

theorem collects_step {tokens : Collected} {s : State} (c : Char) (rest : Text)
    (collects : Collects tokens s.past)
    (short : Text.byteLength (s.past.text ++ c :: rest) ≤ ByteOffset.limit) :
    Collects (collect tokens s c rest) (step s c rest).1.past := by
  have settled : (settle s c).past = s.past := by
    unfold settle
    split <;> rfl
  have single := @more_act_of_isDelimiter (settle s c) (c :: rest)
  unfold collect step
  dsimp only
  rw [settled]
  generalize act (settle s c) (c :: rest) = move at *
  have fits := (Text.byteLength_append_take_le s.past.text (c :: rest) (move.more + 1)).trans short
  have one (delimiter : move.kind.isDelimiter = true) : (c :: rest.take move.more).length = 1 := by
    rw [single delimiter]
    rfl
  by_cases claims : move.claimsLine = true
  · rw [if_pos claims, if_pos claims, Past.text_extend, ← Past.text_remarkLine .blockBody s.past]
    rw [← Past.text_remarkLine .blockBody s.past] at fits
    exact (collects.retagLine rfl).push (List.cons_ne_nil _ _) one fits
  · rw [if_neg claims, if_neg claims, Past.text_extend]
    exact collects.push (List.cons_ne_nil _ _) one fits

/-- What there is of blocks on a line: the token with the given number belongs to a block and has a
character on the given line, where the lines are counted by the line feeds before. -/
def BlockOn (tokens : List Token) (number line : Nat) : Prop :=
  ∃ before token after front c back, tokens = before ++ token :: after ∧ before.length = number ∧
    token.kind = .blockBody ∧ token.text = front ++ c :: back ∧
    (Token.textOf before ++ front).count '\n' = line

/-- **Blocks start where lines start.** -/
theorem startsLine_of_joined {past : Past} (joined : past.IsChain Joined)
    {before after : List Token} {token : Token}
    (h : Token.ofMarks past.reverse = before ++ token :: after) (block : token.kind = .blockBody) :
    before = [] ∨ (Token.textOf before).getLast? = some '\n' := by
  rcases List.eq_nil_or_concat before with none | ⟨front, previous, rfl⟩
  · exact .inl none
  · rw [List.concat_eq_append] at h ⊢
    have member : token ∈ Token.ofMarks past.reverse := by
      rw [h]
      exact List.mem_append_right _ List.mem_cons_self
    have memberBefore : previous ∈ Token.ofMarks past.reverse := by
      rw [h]
      exact List.mem_append_left _ (List.mem_append_right _ List.mem_cons_self)
    -- neighbours differ in kind, so the token before is no block
    have apart : previous.kind ≠ .blockBody := by
      intro same
      have chain := Token.isChain_ofMarks past.reverse
      rw [h, List.append_assoc, List.singleton_append] at chain
      have pair := List.isChain_cons_cons.mp (List.isChain_append.mp chain).2.1
      have delimiter := pair.1 (same.trans block.symm)
      rw [same] at delimiter
      exact absurd delimiter Bool.false_ne_true
    -- its last mark stands right before the block's first
    obtain ⟨c, lastChar, lastMark⟩ := Token.getLast?_marks (Token.ne_nil_of_mem_ofMarks memberBefore)
    obtain ⟨d, text, token_text⟩ := List.exists_cons_of_ne_nil (Token.ne_nil_of_mem_ofMarks member)
    have marks := Token.marks_split h
    rw [List.append_assoc, List.flatMap_append, List.flatMap_singleton] at marks
    have chain := List.isChain_reverse.mpr joined
    rw [marks] at chain
    have joint := (List.isChain_append.mp chain).2.2 ⟨previous.kind, c⟩
      (by rw [List.getLast?_append, lastMark]; rfl) ⟨token.kind, d⟩
      (by rw [Token.marks, token_text]; rfl)
    refine .inr ?_
    rw [Token.textOf, List.flatMap_append, List.flatMap_singleton, List.getLast?_append, lastChar]
    exact congrArg some ((joint block).resolve_left apart)

/-- Of the two terminators this pass marks line feeds only. -/
theorem kind_of_isDelimiter {past : Past}
    (marked : ∀ mark ∈ past, mark.kind ≠ .semicolonDelimiter) {token : Token}
    (m : token ∈ Token.ofMarks past.reverse) (delimiter : token.kind.isDelimiter = true) :
    token.kind = .newlineDelimiter := by
  obtain ⟨c, -, last⟩ := Token.getLast?_marks (Token.ne_nil_of_mem_ofMarks m)
  have made : (⟨token.kind, c⟩ : Mark) ∈ past := by
    rw [← List.mem_reverse, ← Token.flatMap_marks past.reverse]
    exact List.mem_flatMap.mpr ⟨token, m, List.mem_of_getLast? last⟩
  have other := marked _ made
  cases kind : token.kind <;> rw [kind] at delimiter other <;>
    first | rfl | exact absurd delimiter Bool.false_ne_true | exact absurd rfl other

section Lines

variable {tokens : List Token}
  (starts : ∀ before token after, tokens = before ++ token :: after → token.kind = .blockBody →
    before = [] ∨ (Token.textOf before).getLast? = some '\n')

include starts

/-- Where blocks start at lines, a later one is on later lines. -/
theorem line_lt_of_blockOn {i j line line' : Nat} (hi : BlockOn tokens i line)
    (hj : BlockOn tokens j line') (h : i < j) : line < line' := by
  obtain ⟨before, token, after, front, c, back, split, rfl, -, text, rfl⟩ := hi
  obtain ⟨before', token', after', front', -, -, split', rfl, block', -, rfl⟩ := hj
  -- the first token is one of those before the second
  obtain ⟨between, rfl⟩ : ∃ between, before' = before ++ token :: between := by
    rcases List.append_eq_append_iff.mp (split.symm.trans split') with ⟨more, longer, same⟩ |
      ⟨more, shorter, -⟩
    · cases more with
      | nil =>
        rw [longer, List.append_nil] at h
        exact absurd h (Nat.lt_irrefl _)
      | cons first between =>
        rw [(List.cons.inj same).1]
        exact ⟨between, longer⟩
    · rw [shorter, List.length_append] at h
      omega
  -- and the text up to the second ends in a line feed
  have read : Token.textOf (before ++ token :: between) =
      (Token.textOf before ++ front) ++ (c :: back ++ Token.textOf between) := by
    simp only [Token.textOf, List.flatMap_append, List.flatMap_cons, text, List.append_assoc]
  have ends := (starts _ _ _ split' block').resolve_left (by simp)
  rw [read, List.getLast?_append, Option.or_of_isSome (by simp)] at ends
  have crossed := List.count_pos_iff.mpr (List.mem_of_getLast? ends)
  simp only [read, List.count_append] at crossed ⊢
  omega

/-- So no line meets two of them. -/
theorem eq_of_blockOn {i j line : Nat} (hi : BlockOn tokens i line) (hj : BlockOn tokens j line) :
    i = j := by
  by_contra apart
  rcases Nat.lt_or_gt_of_ne apart with h | h
  · exact absurd (line_lt_of_blockOn starts hi hj h) (Nat.lt_irrefl _)
  · exact absurd (line_lt_of_blockOn starts hj hi h) (Nat.lt_irrefl _)

end Lines

end Blocks

/-- **The block pass accounts for its text, and blocks own their lines from the start.** It ends
after no more steps than there are characters, also when it collects its tokens on the way and takes
back those of a line that a brace claims; they tile the text, only line feeds between statements have
a neighbour of their own kind, blocks start where lines start, so that no line meets two of them, and
a block that is still open reaches to the end. -/
theorem scanBlocks_covers {text : Text} (short : Text.byteLength text < Nat.pow 2 32) :
    let tokens := (scanBlocks text).tokens
    stepsWithin (collecting Blocks.step Blocks.collect) text.length (.initial, []) text
      = some (Blocks.run .initial text, tokens.reverse) ∧
    Token.Covers text tokens ∧
    tokens.IsChain (fun a b => a.kind = b.kind → a.kind = .newlineDelimiter) ∧
    (∀ before token after, tokens = before ++ token :: after → token.kind = .blockBody →
      before = [] ∨ (Token.textOf before).getLast? = some '\n') ∧
    (∀ i j line, Blocks.BlockOn tokens i line → Blocks.BlockOn tokens j line → i = j) ∧
    (0 < (scanBlocks text).openBlocks → tokens.getLast?.map (·.kind) = some .blockBody) := by
  intro tokens
  have sound := Blocks.run_sound Blocks.sound_initial text
  have starts : ∀ before token after, tokens = before ++ token :: after →
      token.kind = .blockBody → before = [] ∨ (Token.textOf before).getLast? = some '\n' :=
    fun before token after => Blocks.startsLine_of_joined sound.joined
  refine ⟨?_, ?_, ?_, starts, ?_, ?_⟩
  · have ends : stepsWithin Blocks.step text.length .initial text = some (Blocks.run .initial text) :=
      stepsWithin_of_shorter (fun s => by rw [Blocks.run]) Blocks.run_cons Blocks.length_step_lt
        (Nat.le_refl _) _
    exact stepsWithin_collecting Blocks.text_step Blocks.collects_step .nothing
      (Nat.le_of_lt_succ short) ends
  · have covers := @Token.covers_ofMarks (scanBlocks text).marks
    rw [show (scanBlocks text).marks.map (·.char) = text from text_scanBlocks text] at covers
    exact covers short
  · refine (Token.isChain_ofMarks _).imp_of_mem_imp ?_
    exact fun a b ha hb apart same => Blocks.kind_of_isDelimiter sound.marks ha (apart same)
  · exact fun i j line => Blocks.eq_of_blockOn starts
  · intro inBlock
    obtain ⟨mark, last, kind⟩ := sound.inside inBlock
    obtain ⟨before, token, all, same⟩ := Token.getLast?_ofMarks
      (List.getLast?_reverse.trans (Option.mem_def.mp last))
    show (Token.ofMarks (Blocks.run .initial text).past.reverse).getLast?.map (·.kind) = _
    rw [all, List.getLast?_concat, Option.map_some, same, kind]

/-- A brace behind a string of two lines claims the second of them only, and the next block on its
closing line joins it. -/
theorem scanBlocks_covers_splitString :
    let text := "di \x60\"a\nb\"' \x7b é\n\x7d \x7b\n".toList
    let tokens := (scanBlocks text).tokens
    Text.byteLength text < Nat.pow 2 32 ∧
    tokens.map (fun token => (token.kind, token.span.start.val, token.span.stop.val)) =
      [(.plainText, 0, 3), (.stringLiteral, 3, 7), (.blockBody, 7, 20)] ∧
    Token.Covers text tokens ∧
    ((Token.textOf (tokens.take 2)).getLast? = some '\n') ∧
    (scanBlocks text).openBlocks = 1 ∧ tokens.getLast?.map (·.kind) = some .blockBody := by
  intro text tokens
  have short : Text.byteLength text < Nat.pow 2 32 := by decide
  obtain ⟨-, covers, -, starts, -, last⟩ := scanBlocks_covers short
  have inBlock : (scanBlocks text).openBlocks = 1 := by decide +kernel
  have split : tokens = tokens.take 2 ++
      ⟨.blockBody, "b\"' \x7b é\n\x7d \x7b\n".toList, .between (.ofNat 7) (.ofNat 20)⟩ :: [] := by
    decide +kernel
  have start := (starts _ _ _ split rfl).resolve_left (by decide +kernel)
  exact ⟨short, by decide +kernel, covers, start, inBlock, last (inBlock ▸ Nat.one_pos)⟩

end DoRunner
