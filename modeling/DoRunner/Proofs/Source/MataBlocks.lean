import DoRunner.Proofs.Source.BlockPass
import DoRunner.Proofs.Source.MataLines

/-!
# Mata regions in both passes

The comment pass finds a mata region by the lines of the source, and the block pass finds it by the
statements, which have no comments and may be put together from several lines. Where the keywords
stand on lines of their own both find the same region, and no star is stripped in it
(`stars_of_inStep`). A comment beside a keyword puts them out of step (`stripsStar_outOfStep`).
-/

namespace DoRunner

open CommentScan (statementChars)
open Comments

/-! ## The block pass in a mata region -/

namespace Blocks

/-- **A line that begins with `end`** leaves the block that an end line closes. -/
theorem run_closing {s : State} (opened : s.modes = ⟨[.endBlock]⟩)
    (start : s.past.atLineStart = true) {line : Text} (oneLine : '\n' ∉ line)
    (closes : Line.closesBlock line = true) : (run s (line ++ ['\n'])).modes = .atRoot := by
  cases line with
  | nil => exact Bool.noConfusion closes
  | cons c line =>
    have hc : c ≠ '\n' := fun same => oneLine (same ▸ List.mem_cons_self)
    have inLine : '\n' ∉ line := fun m => oneLine (List.mem_cons_of_mem c m)
    have settled : settle s c = s := by
      unfold settle
      rw [opened]
      rfl
    have first : Text.firstLine (c :: (line ++ ['\n'])) = c :: line := by
      rw [Text.firstLine_cons_of_ne hc, Text.firstLine_append_lf inLine]
    have acts : act (settle s c) (c :: (line ++ ['\n'])) = lineMove (c :: (line ++ ['\n'])) .atRoot := by
      rw [settled]
      unfold act
      rw [opened]
      show endBlockMove s _ = _
      rw [endBlockMove, first, if_pos ⟨start, closes⟩, opened]
      rfl
    rw [List.cons_append, run_cons, step_lineMove rfl (Text.firstLine_append_lf inLine []) acts]
    exact modes_run_lf rfl

/-- Behind whole lines a line starts. -/
theorem atLineStart_run {text : Text} (h : text.getLast? = some '\n') :
    (run .initial text).past.atLineStart = true := by
  have spelled : (run .initial text).past.text = text := text_run .initial text
  rw [← spelled] at h
  have latest := Past.head?_of_text h
  cases hp : (run .initial text).past with
  | nil => rfl
  | cons mark past =>
    rw [hp] at latest
    exact beq_iff_eq.mpr (Option.some.inj latest)

end Blocks

/-- The end of a statement ends a line of the statements. -/
theorem getLast?_statements {marks : List Mark} (nonempty : marks ≠ [])
    (breaks : ∀ mark ∈ marks.getLast?, mark.breaks = true) :
    (marks.flatMap statementChars).getLast? = some '\n' := by
  obtain ⟨front, mark, rfl⟩ := List.eq_nil_or_concat marks |>.resolve_left nonempty
  rw [List.concat_eq_append] at breaks ⊢
  have single : statementChars mark = ['\n'] := beq_iff_eq.mp (breaks mark (by simp))
  rw [List.flatMap_append, List.flatMap_singleton, single, List.getLast?_concat]

/-- What the block pass is inside of behind the statements of these marks. -/
def blocksAfter (marks : List Mark) : ModeStack :=
  (Blocks.run .initial (marks.flatMap statementChars)).modes

/-- A line that leaves the block open does not begin with `end`. -/
theorem closesBlock_of_blocksAfter {before line : List Mark} {stop : Mark} (begun : before ≠ [])
    (breaks : ∀ mark ∈ before.getLast?, mark.breaks = true) (stops : stop.breaks = true)
    (spelled : line.flatMap statementChars = line.map (·.char))
    (oneLine : '\n' ∉ line.map (·.char)) (opened : blocksAfter before = ⟨[.endBlock]⟩)
    (stillOpen : blocksAfter (before ++ line ++ [stop]) = ⟨[.endBlock]⟩) :
    Line.closesBlock (line.map (·.char)) = false := by
  by_contra closes
  have ended := getLast?_statements begun breaks
  have text : (before ++ line ++ [stop]).flatMap statementChars
      = before.flatMap statementChars ++ (line.map (·.char) ++ ['\n']) := by
    rw [List.flatMap_append, List.flatMap_append, spelled, List.flatMap_singleton,
      show statementChars stop = ['\n'] from beq_iff_eq.mp stops, List.append_assoc]
  have closed := Blocks.run_closing opened (Blocks.atLineStart_run ended) oneLine
    (eq_true_of_ne_false closes)
  rw [← Blocks.run_append _ (Text.whole_of_getLast? ended), ← text] at closed
  exact absurd (stillOpen.symm.trans closed) (by simp [ModeStack.atRoot])

/-- Where a stretch ends with the end of a statement, one without such an end is over before. -/
theorem exists_stop {stretch after line more : List Mark} (nonempty : stretch ≠ [])
    (ended : ∀ mark ∈ stretch.getLast?, mark.breaks = true)
    (solid : ∀ mark ∈ line, mark.breaks = false) (ends : ∀ mark ∈ more.head?, mark.breaks = true)
    (split : stretch ++ after = line ++ more) :
    ∃ stop later, stretch = line ++ stop :: later ∧ stop.breaks = true := by
  have last : ∃ mark ∈ stretch, mark.breaks = true :=
    ⟨_, List.getLast_mem nonempty, ended _ (List.getLast?_eq_some_getLast nonempty)⟩
  have notWithin : ¬ stretch ⊆ line := by
    intro within
    obtain ⟨mark, m, breaks⟩ := last
    exact Bool.noConfusion (breaks.symm.trans (solid mark (within m)))
  rcases List.append_eq_append_iff.mp split with ⟨z, rfl, -⟩ | ⟨z, rfl, rfl⟩
  · exact absurd (List.subset_append_left stretch z) notWithin
  · cases z with
    | nil =>
      rw [List.append_nil] at notWithin
      exact absurd (List.Subset.refl line) notWithin
    | cons stop z => exact ⟨stop, z, rfl, ends stop rfl⟩

/-- The block pass opens a block on the bare `mata` of `opener`, and the block is open throughout
`inside`. -/
structure MataBlock (marks before opener inside after : List Mark) : Prop where
  /-- The opener is a statement. -/
  piece : Piece marks before opener (inside ++ after)
  /-- Nothing is open before it. -/
  outside : blocksAfter before = .atRoot
  /-- It is a bare `mata`. -/
  opens : Line.opensMata (opener.flatMap statementChars) = true
  /-- What is inside ends with the end of a statement. -/
  ended : ∀ mark ∈ inside.getLast?, mark.breaks = true
  /-- At the end of each statement inside, the block is open. -/
  stillOpen : ∀ x y, inside = x ++ y → x ≠ [] → (∀ mark ∈ x.getLast?, mark.breaks = true) →
    blocksAfter (before ++ opener ++ x) = ⟨[.endBlock]⟩

/-- Both passes see the same keywords: the line that opens the region is a line of the source as it
stands, and so is each line in it that begins with `end`; and no line in it is a directive that
enters the explicit mode. -/
structure InStep (marks before opener inside after : List Mark) : Prop where
  /-- The opener is its line of the source. -/
  plain : ∀ mark ∈ opener, mark.kind = .plainText
  /-- A line of the source that begins with `end` is a statement. -/
  ends : ∀ front mark rest, StartsLine (before ++ opener).reverse inside after front mark rest →
    mark.kind = .plainText → Line.closesBlock (lineText (mark :: rest)) = true →
    ∃ line more, mark :: rest = line ++ more ∧ PlainLine marks front.reverse line more
  /-- No line of the source enters the explicit mode. -/
  noDirective : ∀ front mark rest,
    StartsLine (before ++ opener).reverse inside after front mark rest →
    mark.kind = .commentLine →
    Line.directive? (lineText (mark :: rest)) ≠ some .explicit

/-- Where no line begins with `end` and none is a directive, nothing puts the passes out of step. -/
theorem InStep.of_lines {marks before opener inside after : List Mark}
    (plain : ∀ mark ∈ opener, mark.kind = .plainText)
    (lines : ∀ n < inside.length,
      Past.atLineStart ((inside.take n).reverse ++ (before ++ opener).reverse) = true →
      Line.closesBlock (lineText (inside.drop n ++ after)) = false ∧
        Line.directive? (lineText (inside.drop n ++ after)) ≠ some .explicit) :
    InStep marks before opener inside after := by
  have each {front : Past} {mark : Mark} {rest : List Mark}
      (h : StartsLine (before ++ opener).reverse inside after front mark rest) :
      Line.closesBlock (lineText (mark :: rest)) = false ∧
        Line.directive? (lineText (mark :: rest)) ≠ some .explicit := by
    obtain ⟨start, x, y, rfl, rfl, rfl⟩ := h
    have line := lines x.length (by simp)
    rw [List.take_left, List.drop_left] at line
    exact line start
  refine ⟨plain, fun front mark rest h _ closes => ?_, fun front mark rest h _ => (each h).2⟩
  exact absurd ((each h).1.symm.trans closes) Bool.false_ne_true

/-- A block is open throughout if it is at each end of a statement. -/
theorem MataBlock.of_take {marks before opener inside after : List Mark}
    (piece : Piece marks before opener (inside ++ after)) (outside : blocksAfter before = .atRoot)
    (opens : Line.opensMata (opener.flatMap statementChars) = true)
    (ended : ∀ mark ∈ inside.getLast?, mark.breaks = true)
    (stillOpen : ∀ n ≤ inside.length, (inside.take n).getLast?.any Mark.breaks = true →
      blocksAfter (before ++ opener ++ inside.take n) = ⟨[.endBlock]⟩) :
    MataBlock marks before opener inside after := by
  refine ⟨piece, outside, opens, ended, ?_⟩
  rintro x y rfl nonempty breaks
  have still := stillOpen x.length (by simp)
  rw [List.take_left] at still
  refine still ?_
  rw [List.getLast?_eq_some_getLast nonempty]
  exact breaks _ (List.getLast?_eq_some_getLast nonempty)

section InStep

variable {text : Text} (noQuote : '"' ∉ text) {before opener inside after : List Mark}
  (block : MataBlock (scanComments text .newline).marks before opener inside after)
  (inStep : InStep (scanComments text .newline).marks before opener inside after)

include noQuote block inStep

/-- The opener is one line. -/
theorem oneLine_opener : opener ≠ [] ∧ opener.flatMap statementChars = opener.map (·.char) ∧
    '\n' ∉ opener.map (·.char) := by
  have nonempty : opener ≠ [] := by
    rintro rfl
    exact Bool.noConfusion block.opens
  obtain ⟨spelled, line⟩ :=
    spelled_of_plainLine noQuote ⟨block.piece, inStep.plain⟩ nonempty
  refine ⟨nonempty, spelled, ?_⟩
  rw [← line]
  exact Text.notMem_firstLine _

/-- **While the block is open, no line that is read as code begins with `end`.** -/
theorem closesBlock_of_inStep {front : Past} {mark : Mark} {rest : List Mark}
    (line : StartsLine (before ++ opener).reverse inside after front mark rest)
    (plain : mark.kind = .plainText) :
    Line.closesBlock (lineText (mark :: rest)) = false := by
  by_contra closes
  obtain ⟨nonempty, -, oneLine⟩ := oneLine_opener noQuote block inStep
  obtain ⟨own, more, split, isLine⟩ :=
    inStep.ends _ _ _ line plain (eq_true_of_ne_false closes)
  obtain ⟨start, x, y, rfl, rfl, rfl⟩ := line
  rw [← List.reverse_append] at start
  rw [← List.reverse_append, List.reverse_reverse] at isLine
  -- the line starts behind the end of a statement inside
  have begun : x ≠ [] := by
    rintro rfl
    rw [List.append_nil, List.reverse_append] at start
    exact oneLine (Past.lf_mem_of_atLineStart nonempty start)
  have breaks : ∀ last ∈ x.getLast?, last.breaks = true := by
    intro last m
    refine isLine.begins last ?_
    rw [List.getLast?_append, Option.mem_def.mp m]
    rfl
  have ink : own ≠ [] := by
    rintro rfl
    rw [List.nil_append] at split
    have lf : mark.char = '\n' := by
      rcases Mark.breaks_iff.mp (isLine.ends mark (by rw [← split]; rfl)) with terminator | ⟨lf, -⟩
      · rw [plain] at terminator
        exact TokenKind.noConfusion terminator
      · exact lf
    rw [lineText, List.map_cons, lf] at closes
    exact closes rfl
  obtain ⟨spelled, text'⟩ := spelled_of_plainLine noQuote isLine ink
  rw [split, text'] at closes
  -- it is over before what is inside is, with the end of its statement
  have finished : ∀ last ∈ (mark :: y).getLast?, last.breaks = true := by
    intro last m
    refine block.ended last ?_
    rw [List.getLast?_append, Option.mem_def.mp m]
    rfl
  obtain ⟨stop, later, parts, stops⟩ := exists_stop (List.cons_ne_nil mark y) finished isLine.solid
    isLine.ends split
  have opened := block.stillOpen x _ rfl begun breaks
  have stillOpen := block.stillOpen (x ++ own ++ [stop]) later
    (by rw [parts, List.append_assoc, List.append_assoc]; rfl) (by simp)
    (by rw [List.getLast?_concat]; intro last m; rwa [← Option.some.inj m])
  rw [← List.append_assoc, ← List.append_assoc] at stillOpen
  refine closes (closesBlock_of_blocksAfter (by simp [begun]) isLine.begins stops spelled ?_ opened
    stillOpen)
  rw [← text']
  exact Text.notMem_firstLine _

/-- **Where the passes are in step, the comment pass strips no star comment** from the lines between
the one that opens the block and the one that closes it: what stands there up to a star that starts
a line goes to the block pass as it stands, unless it is in a block comment. -/
theorem stars_of_inStep {front : Past} {mark : Mark} {rest : List Mark}
    (line : StartsLine (before ++ opener).reverse inside after front mark rest)
    (star : starOpener? ((mark :: rest).map (·.char)) ≠ none) :
    mark.kind = .commentBlock ∨ ∃ indent more, indent.all isIndent = true ∧
      mark :: rest = (indent ++ ['*']).map (Mark.mk .plainText) ++ more := by
  obtain ⟨-, spelled, -⟩ := oneLine_opener noQuote block inStep
  have opens := block.opens
  rw [spelled] at opens
  obtain ⟨start, x, y, split, rfl, rfl⟩ := line
  have within {front : Past} {mark' : Mark} {rest : List Mark}
      (h : StartsLine (before ++ opener).reverse x (mark :: y ++ after) front mark' rest) :
      StartsLine (before ++ opener).reverse inside after front mark' rest := by
    rw [split]
    exact h.extend
  have uneventful : Uneventful (before ++ opener).reverse x (mark :: y ++ after) :=
    ⟨fun _ _ _ h => closesBlock_of_inStep noQuote block inStep (within h),
      fun _ _ _ h => inStep.noDirective _ _ _ (within h)⟩
  have isLine : PlainLine (scanComments text .newline).marks before opener
      (x ++ (mark :: y ++ after)) := by
    rw [← List.append_assoc, ← split]
    exact ⟨block.piece, inStep.plain⟩
  rw [← List.reverse_append] at start
  obtain ⟨s, left, attentive, behind, past⟩ :=
    exists_attentive_behind noQuote isLine opens uneventful start
  rw [← behind] at start
  exact (line_attentive attentive past start star).imp_left Option.some.inj

end InStep

/-- A factor on a line of its own in a mata region. -/
theorem stars_of_inStep_factor :
    let marks := (scanComments "mata:\n* x\nend".toList .newline).marks
    MataBlock marks [] (marks.take 5) ((marks.take 10).drop 5) (marks.drop 10) ∧
      ∃ indent more, indent.all isIndent = true ∧
        ⟨.plainText, '*'⟩ :: (((marks.take 10).drop 5).drop 2 ++ marks.drop 10)
          = (indent ++ ['*']).map (Mark.mk .plainText) ++ more := by
  intro marks
  have block : MataBlock marks [] (marks.take 5) ((marks.take 10).drop 5) (marks.drop 10) := by
    refine .of_take ⟨?_, ?_, ?_, ?_⟩ ?_ ?_ ?_ ?_ <;> decide +kernel
  have inStep : InStep marks [] (marks.take 5) ((marks.take 10).drop 5) (marks.drop 10) := by
    refine .of_lines ?_ ?_ <;> decide +kernel
  have line : StartsLine ([] ++ marks.take 5).reverse ((marks.take 10).drop 5) (marks.drop 10)
      _ ⟨.plainText, '*'⟩ _ := .of_getElem? (n := 1) (by decide +kernel) (by decide +kernel)
  have star := starOpener?_of_indent (w := []) rfl
  have kept := stars_of_inStep (by decide) block inStep line (star _)
  exact ⟨block, kept.resolve_left (by decide)⟩

/-- The comment pass strips a star that starts a line while the block pass has a mata block open. -/
def StripsStar (text : Text) : Prop :=
  ∃ before opener inside after,
    MataBlock (scanComments text .newline).marks before opener inside after ∧
      ∃ front rest,
        StartsLine (before ++ opener).reverse inside after front ⟨.commentLine, '*'⟩ rest

/-- Such a star among the marks, with the positions where the opener and the stretch are over, and the
place of the star in the stretch. -/
theorem StripsStar.of_take {text : Text} {marks : List Mark}
    (scanned : (scanComments text .newline).marks = marks) (opener inside star : Nat)
    (block : MataBlock marks [] (marks.take opener) ((marks.take inside).drop opener)
      (marks.drop inside))
    (start : Past.atLineStart ((((marks.take inside).drop opener).take star).reverse ++
      ([] ++ marks.take opener).reverse) = true)
    (found : ((marks.take inside).drop opener)[star]? = some ⟨.commentLine, '*'⟩) :
    StripsStar text := by
  subst scanned
  exact ⟨_, _, _, _, block, _, _, .of_getElem? start found⟩

/-- **Regions in which the passes are out of step:** the comment pass sees no bare `mata` where a
note or a continuation follows it, and takes `end` with a comment behind it for the end of the region
where the block pass reads on. -/
theorem stripsStar_outOfStep :
    StripsStar "mata: // note\n* x\nend".toList ∧ StripsStar "mata ///\n\n* x\nend".toList ∧
      StripsStar "mata:\nend/**/x\n* y\nend".toList := by
  refine ⟨.of_take rfl 13 18 1 (.of_take ⟨?_, ?_, ?_, ?_⟩ ?_ ?_ ?_ ?_) ?_ ?_,
    .of_take rfl 9 14 1 (.of_take ⟨?_, ?_, ?_, ?_⟩ ?_ ?_ ?_ ?_) ?_ ?_,
    .of_take rfl 5 19 10 (.of_take ⟨?_, ?_, ?_, ?_⟩ ?_ ?_ ?_ ?_) ?_ ?_⟩ <;> decide +kernel

end DoRunner
