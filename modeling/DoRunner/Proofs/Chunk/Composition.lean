import DoRunner.Proofs.Chunk.Framing
import DoRunner.Proofs.Source.BlockPass
import DoRunner.Proofs.Source.CommentPass

/-!
# Buffers one after another

Put a buffer of whole lines that leaves nothing open before another one, and both are read as each
of them alone (`Analysis.ofCode_append`): the same ends statements behind them and the same is
missing there, and what is sent is what is sent for the first and then what is sent for the second.

Behind the first buffer the comment pass is in a state that it cannot tell from its first one, since
both stand at the start of a line. One thing does reach back over that border. Where a block comment
is the last thing in the first buffer and the second begins with a star, the blanks that end the
comment's line join the comment. They end a line, so neither the block pass nor what is sent misses
them (`Thinned`).
-/

namespace DoRunner

theorem normalizeNewlines_of_notMem {t : Text} (h : '\r' ∉ t) : normalizeNewlines t = t := by
  induction t with
  | nil => rfl
  | cons c t ih =>
    have hc : c ≠ '\r' := fun e => h (e ▸ List.mem_cons_self)
    rw [normalizeNewlines.eq_3 _ _ (fun _ e => absurd e hc) hc, ih fun m => h (List.mem_cons_of_mem _ m)]

/-! ## Statements without blanks that end a line -/

/-- The same text, except that blanks which end a line may be gone. -/
inductive Thinned : Text → Text → Prop where
  /-- The same. -/
  | same {t : Text} : Thinned t t
  /-- Blanks at the end of a line are gone. -/
  | blanks {front w back : Text} (blank : Text.blank w = true) (oneLine : '\n' ∉ w) :
      Thinned (front ++ (w ++ '\n' :: back)) (front ++ '\n' :: back)

theorem Thinned.trimmedLines {s t : Text} (h : Thinned s t) :
    Text.trimmedLines t = Text.trimmedLines s := by
  cases h with
  | same => rfl
  | blanks blank oneLine => exact (Text.trimmedLines_respaced blank oneLine _ _).symm

theorem Thinned.blocks {s t : Text} (h : Thinned s t) :
    (Blocks.run .initial t).modes = (Blocks.run .initial s).modes := by
  cases h with
  | same => rfl
  | blanks blank oneLine =>
    exact (Blocks.run_respaced (s := .initial) ⟨rfl, rfl, rfl⟩ blank oneLine _ _).modes

namespace Comments

/-- What marks contribute to the statements, the latest first. -/
def statements (past : Past) : Text := past.reverse.flatMap CommentScan.statementChars

theorem statements_append (marks : List Mark) (past : Past) :
    statements (marks ++ past) = statements past ++ statements marks := by
  rw [statements, statements, statements, List.reverse_append, List.flatMap_append]

theorem statements_extend (past : Past) (kind : TokenKind) (chars : Text) :
    statements (past.extend kind chars)
      = statements past ++ chars.flatMap fun c => CommentScan.statementChars ⟨kind, c⟩ := by
  rw [Past.extend_eq, statements_append]
  unfold statements
  rw [List.reverse_reverse, List.flatMap_map]

theorem Respaced.head? {p q : Past} (h : Respaced p q) : q.head? = p.head? := by
  cases h with
  | same => rfl
  | @blanks before marks w kind _ _ _ => cases marks <;> rfl

/-- **Blanks that became part of a comment end a line of the statements.** -/
theorem Respaced.thinned {p q : Past} (h : Respaced p q) : Thinned (statements p) (statements q) := by
  cases h with
  | same => exact .same
  | @blanks before marks w kind blank oneLine outside =>
    have lineFeed : ∀ past : Past, statements (⟨.plainText, '\n'⟩ :: past)
        = statements past ++ ['\n'] := statements_append [⟨.plainText, '\n'⟩]
    have gone : ∀ k : TokenKind, k.isComment = true →
        (w.flatMap fun c => CommentScan.statementChars ⟨k, c⟩) = [] := by
      intro k hk
      apply List.flatMap_eq_nil_iff.mpr
      intro c _
      rw [CommentScan.statementChars, if_pos hk]
    rw [statements_append, statements_append, lineFeed, lineFeed, statements_extend,
      statements_extend, gone .commentBlock rfl, List.append_nil, List.append_assoc,
      List.append_assoc, List.append_assoc, List.singleton_append]
    rcases outside with rfl | rfl
    · have kept : (w.flatMap fun c => CommentScan.statementChars ⟨.plainText, c⟩) = w :=
        List.flatMap_singleton' w
      rw [kept]
      exact .blanks blank oneLine
    · rw [gone .commentLine rfl]
      exact .same

/-- What stands before is no end of a continuation, or nothing stands there. -/
theorem endOf_plainText (entered : List Mode) :
    endOf (some .plainText) entered = endOf none entered := by
  induction entered with
  | nil => rfl
  | cons mode outer ih => cases mode <;> first | rfl | exact ih

end Comments

/-! ## What follows the last terminator -/

namespace Analysis

theorem dropBytes_suffix (n : Nat) (marks : List Mark) : dropBytes n marks <:+ marks := by
  fun_induction dropBytes n marks with
  | case1 marks => exact List.suffix_rfl
  | case2 => exact List.suffix_rfl
  | case3 n mark marks ih => exact ih.trans (List.suffix_cons mark marks)

/-- Bytes of marks are dropped with the marks. -/
theorem dropBytes_append (n : Nat) (front marks : List Mark) :
    dropBytes (n + Text.byteLength (front.map (·.char))) (front ++ marks) = dropBytes n marks := by
  induction front with
  | nil => rfl
  | cons mark front ih =>
    have size := Char.utf8Size_pos mark.char
    rw [List.map_cons, Text.byteLength]
    obtain ⟨k, hk⟩ : ∃ k, n + (mark.char.utf8Size + Text.byteLength (front.map (·.char))) = k + 1 :=
      ⟨_, (Nat.succ_pred_eq_of_pos (by omega)).symm⟩
    have left : k + 1 - mark.char.utf8Size = n + Text.byteLength (front.map (·.char)) := by omega
    rw [hk, List.cons_append, dropBytes, left, ih]

theorem afterLastTerminator_append (front marks : List Mark) :
    afterLastTerminator (front ++ marks) = afterLastTerminator marks ∨
      afterLastTerminator marks = marks ∧
        afterLastTerminator (front ++ marks) = afterLastTerminator front ++ marks := by
  unfold afterLastTerminator
  rw [List.reverse_append, List.takeWhile_append]
  split
  · rename_i all
    right
    have whole : _ = marks.reverse := List.IsPrefix.eq_of_length ( List.takeWhile_prefix _) all
    rw [whole, List.reverse_append, List.reverse_reverse]
    exact ⟨rfl, rfl⟩
  · exact Or.inl rfl

/-- The shorter one of two ends. -/
def shorter (s t : List Mark) : List Mark := if s.length < t.length then s else t

/-- **What stands before counts for nothing** once the explicit mode has been entered behind it. -/
theorem shorter_append (n : Nat) (front marks : List Mark) :
    shorter (dropBytes n marks) (afterLastTerminator (front ++ marks))
      = shorter (dropBytes n marks) (afterLastTerminator marks) := by
  rcases afterLastTerminator_append front marks with same | ⟨whole, behind⟩
  · rw [same]
  · have suffix := dropBytes_suffix n marks
    rw [whole, behind]
    unfold shorter
    rw [List.length_append]
    by_cases less : (dropBytes n marks).length < marks.length
    · rw [if_pos less, if_pos (by omega)]
    · have all : dropBytes n marks = marks := suffix.eq_of_length_le (by omega)
      rw [if_neg less, all]
      split
      · rfl
      · have none : afterLastTerminator front = [] := List.length_eq_zero_iff.mp (by omega)
        rw [none, List.nil_append]

end Analysis

/-! ## The border -/

namespace Comments

/-- The comment pass at the end of a buffer that starts in the newline mode. -/
def stateAfter (code : Text) : State := run (.initial .newline) (normalizeNewlines code)

end Comments

/-- A buffer behind which nothing is open, and in the newline mode still. -/
structure LeavesNothingOpen (code : Text) : Prop where
  /-- No comment and no string is open. -/
  modes : (Comments.stateAfter code).modes.isRoot = true
  /-- Lines end statements. -/
  delimiter : (Comments.stateAfter code).delimiter = .newline
  /-- No mata region is open. -/
  inMata : (Comments.stateAfter code).inMata = false
  /-- No line is continued. -/
  clean : (Analysis.ofCode code .newline).comments.endState = .clean
  /-- No block is open, and no string in the statements is. -/
  blocks : (Blocks.run .initial (Analysis.ofCode code .newline).cleanText).modes.isRoot = true

theorem ModeStack.eq_atRoot {modes : ModeStack} (h : modes.isRoot = true) : modes = .atRoot := by
  obtain ⟨entered⟩ := modes
  have none : entered = [] := List.isEmpty_iff.mp h
  rw [none, atRoot]

/-- How a buffer is read behind another one, of which `before` is left. -/
structure ReadBehind (a b : Text) (before : Past) : Prop where
  /-- A line starts there. -/
  head : before.head? = some ⟨.plainText, '\n'⟩
  /-- The statements before are those of the first buffer, but for blanks that end a line. -/
  thinned : Thinned (Analysis.ofCode a .newline).cleanText (Comments.statements before)
  /-- The comment pass does as it does without anything before. -/
  follows : Comments.Follows [] before (Text.byteLength before.text) (Comments.stateAfter b)
    (Comments.stateAfter (a ++ b))

/-- **Behind the first buffer the comment pass starts anew.** -/
theorem LeavesNothingOpen.readBehind {a b : Text} (closed : LeavesNothingOpen a)
    (ended : a.getLast? = some '\n') (plainA : '\r' ∉ a) (plainB : '\r' ∉ b) :
    ∃ before, ReadBehind a b before := by
  have plain : '\r' ∉ a ++ b := by
    rw [List.mem_append]
    exact fun m => m.elim plainA plainB
  have clean : (scanComments (normalizeNewlines a) .newline).endState = .clean := closed.clean
  have root := ModeStack.eq_atRoot closed.modes
  have newline := closed.delimiter
  have inMata := closed.inMata
  unfold Comments.stateAfter at root newline inMata
  rw [normalizeNewlines_of_notMem plainA] at clean root newline inMata
  generalize hs : Comments.run (.initial .newline) a = s at root newline inMata
  have entered : (Comments.run (.initial .newline) a).modes.entered = [] := by
    rw [hs, root]
    rfl
  have nonempty : a ≠ [] := by
    rintro rfl
    exact absurd ended (by simp)
  have whole := Text.whole_of_getLast? ended
  have complete : (Comments.run (.initial .newline) a).past.head?.map (·.kind)
      ≠ some .commentContinuation := by
    intro continued
    rw [scanComments] at clean
    dsimp only at clean
    rw [entered, continued] at clean
    exact absurd clean (by decide)
  have lines : (Comments.run (.initial .newline) a).delimiter = .newline := by rw [hs, newline]
  have last := Comments.head?_run .root whole nonempty entered lines complete
  obtain ⟨s', respaced, goesOn⟩ := Comments.run_append_of_root .root whole entered lines b
  rw [hs] at respaced last
  have since : s'.explicitSince = none := by
    have fits := Comments.run_sinceFits (s := .initial .newline) rfl a
    rw [hs, Comments.SinceFits, newline] at fits
    rw [respaced.since]
    exact Option.isNone_iff_eq_none.mp (Option.isSome_eq_false_iff.mp fits)
  have head := respaced.past.head?.trans last
  refine ⟨s'.past, head, ?_, ?_⟩
  · show Thinned (Comments.statements (Comments.stateAfter a).past) _
    rw [Comments.stateAfter, normalizeNewlines_of_notMem plainA, hs]
    exact respaced.past.thinned
  · have follows : Comments.Follows [] s'.past (Text.byteLength s'.past.text) (.initial .newline) s' :=
      ⟨respaced.modes.trans root, respaced.delimiter.trans newline,
        respaced.inMata.trans inMata, since, [], rfl, rfl, fun explicit => absurd explicit (by decide)⟩
    rw [Comments.stateAfter, Comments.stateAfter, normalizeNewlines_of_notMem plain,
      normalizeNewlines_of_notMem plainB, goesOn]
    exact Comments.run_follows (Past.alike_of_lf (by rw [head]; rfl)) (Nat.zero_add _).symm follows b

/-! ## What the buffer looks like there -/

namespace ReadBehind

variable {a b : Text} {before : Past} (h : ReadBehind a b before)

include h

theorem past : (Comments.stateAfter (a ++ b)).past = (Comments.stateAfter b).past ++ before := by
  obtain ⟨marks, alone, behind, -⟩ := h.follows.past
  rw [behind, alone, List.append_nil]

/-- What stands before are whole lines of statements. -/
theorem getLast?_statements : (Comments.statements before).getLast? = some '\n' := by
  have head := h.head
  cases before with
  | nil => exact absurd head (by simp)
  | cons mark before =>
    obtain rfl := Option.some.inj head
    rw [show (⟨.plainText, '\n'⟩ :: before : Past) = [⟨.plainText, '\n'⟩] ++ before from rfl,
      Comments.statements_append, List.getLast?_append]
    rfl

theorem cleanText : (Analysis.ofCode (a ++ b) .newline).cleanText
    = Comments.statements before ++ (Analysis.ofCode b .newline).cleanText :=
  (congrArg Comments.statements h.past).trans (Comments.statements_append _ _)

theorem finalMode :
    (Analysis.ofCode (a ++ b) .newline).finalMode = (Analysis.ofCode b .newline).finalMode :=
  h.follows.delimiter

theorem endState : (Analysis.ofCode (a ++ b) .newline).comments.endState
    = (Analysis.ofCode b .newline).comments.endState := by
  show Comments.endOf ((Comments.stateAfter (a ++ b)).past.head?.map (·.kind))
      (Comments.stateAfter (a ++ b)).modes.entered
    = Comments.endOf ((Comments.stateAfter b).past.head?.map (·.kind))
      (Comments.stateAfter b).modes.entered
  rw [h.past, h.follows.modes]
  cases (Comments.stateAfter b).past with
  | cons mark past => rfl
  | nil =>
    rw [List.nil_append, h.head]
    exact Comments.endOf_plainText _

/-- **The block pass starts anew,** too. -/
theorem openBlocks
    (root : (Blocks.run .initial (Analysis.ofCode a .newline).cleanText).modes.isRoot = true) :
    (Analysis.ofCode (a ++ b) .newline).blocks.openBlocks
      = (Analysis.ofCode b .newline).blocks.openBlocks := by
  have atRoot : (Blocks.run .initial (Comments.statements before)).modes = .atRoot := by
    rw [h.thinned.blocks]
    exact ModeStack.eq_atRoot root
  show (Blocks.run .initial (Analysis.ofCode (a ++ b) .newline).cleanText).modes.openBlocks
    = (Blocks.run .initial (Analysis.ofCode b .newline).cleanText).modes.openBlocks
  rw [h.cleanText, Blocks.run_append .initial (Text.whole_of_getLast? h.getLast?_statements)]
  exact congrArg ModeStack.openBlocks
    (Blocks.run_alike (Blocks.alike_initial h.getLast?_statements atRoot) _).modes

/-- In the explicit mode the same stands behind the last terminator, or behind the directive. -/
theorem unterminatedTail (explicit : (Analysis.ofCode b .newline).finalMode.isExplicit = true) :
    Analysis.unterminatedTail (Analysis.ofCode (a ++ b) .newline)
      = Analysis.unterminatedTail (Analysis.ofCode b .newline) := by
  obtain ⟨since, hsince⟩ : ∃ since, (Comments.stateAfter b).explicitSince = some since := by
    have fits := Comments.run_sinceFits (s := .initial .newline) rfl (normalizeNewlines b)
    exact Option.isSome_iff_exists.mp (fits.trans explicit)
  have behind := h.follows.since
  rw [hsince] at behind
  have size : Text.byteLength before.text = Text.byteLength (before.reverse.map (·.char)) := by
    rw [List.map_reverse]
    rfl
  show (Analysis.shorter (Analysis.dropBytes ((Comments.stateAfter (a ++ b)).explicitSince.getD 0)
        (Comments.stateAfter (a ++ b)).past.reverse)
      (Analysis.afterLastTerminator (Comments.stateAfter (a ++ b)).past.reverse)).map (·.char)
    = (Analysis.shorter (Analysis.dropBytes ((Comments.stateAfter b).explicitSince.getD 0)
        (Comments.stateAfter b).past.reverse)
      (Analysis.afterLastTerminator (Comments.stateAfter b).past.reverse)).map (·.char)
  rw [hsince, behind, h.past, List.reverse_append, Option.map_some, Option.getD_some,
    Option.getD_some, size, Analysis.dropBytes_append, Analysis.shorter_append]

theorem trimmedLines : Text.trimmedLines (Analysis.ofCode (a ++ b) .newline).cleanText
    = Text.trimmedLines (Analysis.ofCode a .newline).cleanText
      ++ Text.trimmedLines (Analysis.ofCode b .newline).cleanText := by
  rw [h.cleanText, Text.trimmedLines_append (Text.whole_of_getLast? h.getLast?_statements),
    h.thinned.trimmedLines]

end ReadBehind

namespace Analysis

/-- What decides whether a buffer can be run. -/
theorem incomplete?_congr {x y : Analysis} (blocks : y.blocks.openBlocks = x.blocks.openBlocks)
    (clean : y.comments.endState = x.comments.endState) (mode : y.finalMode = x.finalMode)
    (tail : x.finalMode.isExplicit = true → unterminatedTail y = unterminatedTail x) :
    y.incomplete? = x.incomplete? := by
  unfold incomplete?
  rw [blocks, clean, mode]
  by_cases explicit : x.finalMode.isExplicit = true
  · rw [tail explicit]
  · have reached : ∀ t, ¬ (x.finalMode.isExplicit = true ∧ Text.blank t = false) :=
      fun t both => explicit both.1
    rw [if_neg (reached _), if_neg (reached _)]

/-- **Buffers compose.** A buffer of whole lines that leaves nothing open changes nothing for what
is put behind it: the same ends statements afterwards and the same is missing, and what is sent is
what is sent for the one and then what is sent for the other. -/
theorem ofCode_append {a b : Text} (ended : a.getLast? = some '\n') (plainA : '\r' ∉ a)
    (plainB : '\r' ∉ b) (closed : LeavesNothingOpen a) :
    (ofCode (a ++ b) .newline).finalMode = (ofCode b .newline).finalMode ∧
    (ofCode (a ++ b) .newline).incomplete? = (ofCode b .newline).incomplete? ∧
    ∀ settings context contextA contextB,
      let both := (assemble (ofCode (a ++ b) .newline) settings context).1
      let first := (assemble (ofCode a .newline) settings contextA).1
      let second := (assemble (ofCode b .newline) settings contextB).1
      both.body = first.body ++ second.body ∧
      both.plotsInjected = first.plotsInjected + second.plotsInjected := by
  obtain ⟨before, behind⟩ := closed.readBehind ended plainA plainB
  refine ⟨behind.finalMode, ?_, ?_⟩
  · exact incomplete?_congr (behind.openBlocks closed.blocks) behind.endState behind.finalMode
      behind.unterminatedTail
  · intro settings context contextA contextB
    have body : ∀ code context, (assemble (ofCode code .newline) settings context).1.body
        = (Text.trimmedLines (ofCode code .newline).cleanText).flatMap settings.linesOf := by
      intro code context
      rw [← text_scanBlocks (ofCode code .newline).cleanText]
      exact body_of_text settings _
    have plots : ∀ code context, (assemble (ofCode code .newline) settings context).1.plotsInjected
        = .ofNat ((Text.trimmedLines (ofCode code .newline).cleanText).countP
            settings.plots.isPlotLine) := by
      intro code context
      rw [← text_scanBlocks (ofCode code .newline).cleanText]
      exact plotsInjected_of_text settings _
    dsimp only
    rw [body, body, body, plots, plots, plots, behind.trimmedLines, List.countP_append,
      UInt32.ofNat_add]
    exact ⟨List.flatMap_append, rfl⟩

/-- The blanks behind the block comment join it, since the second buffer begins with a star. -/
theorem ofCode_append_starBehindComment :
    let a := "pr define p\nend\nscatter y x /* c */  \n".toList
    let b := "* note\n#delimit ;\nsum y".toList
    LeavesNothingOpen a ∧
    (ofCode (a ++ b) .newline).finalMode = .semicolon ∧
    (ofCode (a ++ b) .newline).incomplete? = some .missingTerminator ∧
    ∀ settings context, (assemble (ofCode (a ++ b) .newline) settings context).1.body
      = (assemble (ofCode a .newline) settings context).1.body
        ++ (assemble (ofCode b .newline) settings context).1.body := by
  have closed : LeavesNothingOpen "pr define p\nend\nscatter y x /* c */  \n".toList :=
    ⟨by decide +kernel, by decide +kernel, by decide +kernel, by decide +kernel, by decide +kernel⟩
  obtain ⟨mode, missing, sent⟩ := ofCode_append (b := "* note\n#delimit ;\nsum y".toList)
    (by decide) (by decide) (by decide) closed
  exact ⟨closed, mode.trans (by decide +kernel), missing.trans (by decide +kernel),
    fun settings context => (sent settings context context context).1⟩

end Analysis

end DoRunner
