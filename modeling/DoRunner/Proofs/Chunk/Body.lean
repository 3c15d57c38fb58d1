import DoRunner.Chunk.Assembly
import DoRunner.Proofs.Text.Lines

/-!
# What a body is made of

The block pass cuts the statements into tokens, which begin and end in the middle of lines and may
span many of them, and where a brace opens it tags the line so far anew. None of that shows in the
lines of a body. What has been put together of tokens is what they spell, however it was cut
(`LineBuilder.written_ofTokens`), and so the lines are those of the text (`BodyLine.texts_ofScan`):
how the text was divided into blocks decides how lines are expected to echo, but not which lines
there are.

So a body holds each statement line once, in order, and right behind each line that draws the two
lines that export the graph (`assemble_injects`).
-/

namespace DoRunner

/-! ## Putting lines together -/

namespace LineBuilder

/-- What has been put together so far. -/
def written (b : LineBuilder) : Text :=
  Text.ended (b.ended.reverse.map (·.text)) ++ b.current.text

theorem written_endLine (b : LineBuilder) : b.endLine.written = b.written ++ ['\n'] := by
  rw [written, endLine, List.reverse_cons, List.map_append, Text.ended_append, List.map_singleton,
    Text.ended_cons, written, List.append_nil, List.append_assoc]
  rfl

theorem written_extend (b : LineBuilder) (block : Option Nat) (part : Text) :
    (b.extend block part).written = b.written ++ part := by
  unfold extend
  split
  · rename_i nothing
    rw [nothing, List.append_nil]
  · exact (List.append_assoc _ _ _).symm

theorem written_parts (b : LineBuilder) (block : Option Nat) (parts : List Text) :
    (parts.foldl (fun b part => b.endLine.extend block part) b).written
      = b.written ++ parts.flatMap ('\n' :: ·) := by
  induction parts generalizing b with
  | nil => exact (List.append_nil _).symm
  | cons part parts ih =>
    rw [List.foldl_cons, ih, written_extend, written_endLine, List.flatMap_cons]
    simp only [List.append_assoc, List.cons_append, List.nil_append]

theorem written_addToken (b : LineBuilder) (token : Token × Nat) :
    (b.addToken token).written = b.written ++ token.1.text := by
  have spelt := Text.unlines_lines token.1.text
  unfold addToken
  cases cut : Text.lines token.1.text with
  | nil => exact absurd cut (Text.lines_ne_nil _)
  | cons part parts =>
    rw [cut] at spelt
    dsimp only
    rw [← spelt, Text.unlines_cons, ← List.append_assoc, ← written_extend b (blockOf token)]
    exact written_parts _ _ parts

/-- **The lines put together of tokens spell what the tokens spell.** -/
theorem written_ofTokens (tokens : List Token) : (ofTokens tokens).written = Token.textOf tokens := by
  have all (tokens : List (Token × Nat)) (b : LineBuilder) :
      (tokens.foldl addToken b).written = b.written ++ tokens.flatMap (·.1.text) := by
    induction tokens generalizing b with
    | nil => exact (List.append_nil _).symm
    | cons token tokens ih =>
      rw [List.foldl_cons, ih, written_addToken, List.flatMap_cons, List.append_assoc]
  rw [ofTokens, all, show empty.written = [] from rfl, List.nil_append, Token.textOf,
    ← List.flatMap_map, List.zipIdx_map_fst]

/-- All lines have a property, and so has the one that goes on. -/
def Every (P : BodyLine → Prop) (b : LineBuilder) : Prop := ∀ line ∈ b.lines, P line

section Every

variable {P : BodyLine → Prop} {b : LineBuilder}

theorem Every.endLine (begins : P ⟨[], none⟩) (h : Every P b) : Every P b.endLine := by
  intro line m
  rcases List.mem_cons.mp (List.mem_reverse.mp m) with rfl | m
  · exact begins
  · exact h line (List.mem_reverse.mpr m)

theorem Every.extend {block : Option Nat} {part : Text}
    (goesOn : ∀ line, P line → P ⟨line.text ++ part, block.or line.block⟩) (h : Every P b) :
    Every P (b.extend block part) := by
  unfold LineBuilder.extend
  split
  · exact h
  · intro line m
    rcases List.mem_cons.mp (List.mem_reverse.mp m) with rfl | m
    · exact goesOn _ (h _ (List.mem_reverse.mpr List.mem_cons_self))
    · exact h line (List.mem_reverse.mpr (List.mem_cons_of_mem _ m))

theorem Every.addToken (begins : P ⟨[], none⟩) {token : Token × Nat}
    (goesOn : ∀ part, '\n' ∉ part →
      ∀ line, P line → P ⟨line.text ++ part, (blockOf token).or line.block⟩) (h : Every P b) :
    Every P (b.addToken token) := by
  have oneLine (part : Text) (m : part ∈ Text.lines token.1.text) := Text.notMem_of_mem_lines m
  unfold LineBuilder.addToken
  cases cut : Text.lines token.1.text with
  | nil => exact h
  | cons part parts =>
    rw [cut] at oneLine
    refine List.foldlRecOn (motive := Every P) parts _ ?_ ?_
    · exact h.extend (goesOn part (oneLine part List.mem_cons_self))
    · intro b h part m
      exact (h.endLine begins).extend (goesOn part (oneLine part (List.mem_cons_of_mem _ m)))

/-- What holds of a line before it begins, and goes on to hold when the line does, holds of all. -/
theorem every_ofTokens (begins : P ⟨[], none⟩) {tokens : List Token}
    (goesOn : ∀ token ∈ tokens.zipIdx, ∀ part, '\n' ∉ part →
      ∀ line, P line → P ⟨line.text ++ part, (blockOf token).or line.block⟩) :
    Every P (ofTokens tokens) := by
  refine List.foldlRecOn (motive := Every P) tokens.zipIdx addToken ?_ ?_
  · intro line m
    rw [List.mem_singleton.mp m]
    exact begins
  · intro b h token m
    exact h.addToken begins (goesOn token m)

end Every

/-- The lines are those of the text. -/
theorem texts_ofTokens (tokens : List Token) :
    (ofTokens tokens).lines.map (·.text) = Text.lines (Token.textOf tokens) := by
  have oneLine : Every (fun line => '\n' ∉ line.text) (ofTokens tokens) := by
    refine every_ofTokens List.not_mem_nil fun token _ part noPart line noLine m => ?_
    exact (List.mem_append.mp m).elim noLine noPart
  rw [← written_ofTokens, written, Text.lines_ended_append, Text.lines_of_notMem, lines,
    List.reverse_cons, List.map_append, List.map_singleton]
  · exact oneLine _ (List.mem_reverse.mpr List.mem_cons_self)
  · intro t m
    obtain ⟨line, ml, rfl⟩ := List.mem_map.mp m
    exact oneLine line (List.mem_reverse.mpr (List.mem_cons_of_mem _ (List.mem_reverse.mp ml)))

end LineBuilder

/-! ## Statement lines -/

namespace BodyLine

theorem trimmed?_eq_some_iff {line line' : BodyLine} : line.trimmed? = some line' ↔
    Text.trim line.text ≠ [] ∧ line' = ⟨Text.trim line.text, line.block⟩ := by
  unfold trimmed?
  dsimp only
  split
  · rename_i blank
    exact iff_of_false nofun fun h => h.1 blank
  · rename_i ink
    rw [Option.some_inj]
    exact ⟨fun h => ⟨ink, h.symm⟩, fun h => h.2.symm⟩

/-- **The statement lines are the lines of the text, trimmed, without the empty ones.** -/
theorem texts_ofScan (scan : BlockScan) :
    (ofScan scan).map (·.text) = Text.trimmedLines scan.text := by
  have kept (ls : List BodyLine) : (ls.filterMap trimmed?).map (·.text)
      = ((ls.map (·.text)).map Text.trim).filter (· ≠ []) := by
    induction ls with
    | nil => rfl
    | cons line ls ih =>
      rw [List.map_cons, List.map_cons]
      by_cases blank : Text.trim line.text = []
      · have none : line.trimmed? = none := if_pos blank
        rw [List.filterMap_cons_none none, ih, List.filter_cons_of_neg (by simpa using blank)]
      · have some : line.trimmed? = some ⟨Text.trim line.text, line.block⟩ := if_neg blank
        rw [List.filterMap_cons_some some, List.map_cons, ih,
          List.filter_cons_of_pos (by simpa using blank)]
  rw [ofScan, kept, LineBuilder.texts_ofTokens, BlockScan.tokens, Token.textOf_ofMarks]
  rfl

theorem trim_text {scan : BlockScan} {line : BodyLine} (h : line ∈ ofScan scan) :
    Text.trim line.text = line.text ∧ line.text ≠ [] ∧ '\n' ∉ line.text := by
  have hm : line.text ∈ (ofScan scan).map (·.text) := List.mem_map_of_mem h
  rw [texts_ofScan, Text.trimmedLines, List.mem_filter, List.mem_map] at hm
  obtain ⟨⟨t, ht, he⟩, hne⟩ := hm
  rw [← he]
  refine ⟨Text.trim_trim t, by simpa [he] using hne, ?_⟩
  exact fun m => Text.notMem_of_mem_lines ht (Text.mem_of_mem_trim m)

end BodyLine

/-! ## Injected lines -/

/-- The lines of a body that come from one statement line. -/
def AssemblySettings.linesOf (settings : AssemblySettings) (line : Text) : List Text :=
  if settings.plots.isPlotLine line then
    [line, settings.graph.exportLine settings.cache, GraphExport.incrementLine]
  else [line]

theorem map_text_withInjected (settings : AssemblySettings) (lines : List BodyLine) (line : BodyLine) :
    (withInjected settings lines line).map (·.text) = settings.linesOf line.text := by
  unfold withInjected AssemblySettings.linesOf
  dsimp only
  split <;> rfl

/-! ## Bodies -/

section Bodies

variable (settings : AssemblySettings) (scan : BlockScan)

/-- The lines of a body with what is expected of their echoes. -/
def expectedBody : List ExpectedLine :=
  (BodyLine.ofScan scan).flatMap (withInjected settings (BodyLine.ofScan scan))

theorem body_chunkOf :
    (chunkOf settings scan).body = (expectedBody settings scan).map (·.text) := by
  unfold chunkOf expectedBody
  dsimp only
  split
  · rfl
  · split <;> rfl

/-- The lines of a body come from the lines of the text alone. -/
theorem body_of_text : (chunkOf settings scan).body
    = (Text.trimmedLines scan.text).flatMap settings.linesOf := by
  rw [body_chunkOf, expectedBody, List.map_flatMap, ← BodyLine.texts_ofScan, List.flatMap_map]
  simp only [map_text_withInjected]

theorem plotsInjected_of_text : (chunkOf settings scan).plotsInjected
    = .ofNat ((Text.trimmedLines scan.text).countP settings.plots.isPlotLine) := by
  have counted : (chunkOf settings scan).plotsInjected
      = .ofNat ((BodyLine.ofScan scan).countP fun line => settings.plots.isPlotLine line.text) := by
    unfold chunkOf
    dsimp only
    split
    · rfl
    · split <;> rfl
  rw [counted, ← BodyLine.texts_ofScan, List.countP_map]
  rfl

end Bodies

/-! ## Bodies of buffers -/

namespace Analysis

theorem body_assemble (code : Text) (mode : DelimiterMode) (settings : AssemblySettings)
    (context : SessionContext) : (assemble (ofCode code mode) settings context).1.body
      = (Text.trimmedLines (ofCode code mode).cleanText).flatMap settings.linesOf := by
  rw [← text_scanBlocks (ofCode code mode).cleanText]
  exact body_of_text settings _

theorem plotsInjected_assemble (code : Text) (mode : DelimiterMode) (settings : AssemblySettings)
    (context : SessionContext) : (assemble (ofCode code mode) settings context).1.plotsInjected
      = .ofNat ((Text.trimmedLines (ofCode code mode).cleanText).countP settings.plots.isPlotLine) := by
  rw [← text_scanBlocks (ofCode code mode).cleanText]
  exact plotsInjected_of_text settings _

end Analysis

/-! ## Counting exports -/

/-- The counts have room for so many exports more. -/
def SessionContext.HasRoom (context : SessionContext) (exports : Nat) : Prop :=
  exports < UInt32.size ∧ context.plotCounter.toNat + exports < UInt64.size

/-- Where there is room, no count starts again from zero. -/
theorem SessionContext.HasRoom.toNat {context : SessionContext} {exports : Nat}
    (room : context.HasRoom exports) {injected : UInt32} (counted : injected = .ofNat exports) :
    injected.toNat = exports ∧
      (context.plotCounter + ↑(injected : Nat)).toNat = context.plotCounter.toNat + exports := by
  obtain ⟨few, fits⟩ := room
  have same : injected.toNat = exports := by rw [counted, UInt32.toNat_ofNat_of_lt' few]
  refine ⟨same, ?_⟩
  have small : exports < UInt64.size := Nat.lt_of_le_of_lt (Nat.le_add_left _ _) fits
  rw [same, UInt64.toNat_add, UInt64.toNat_ofNat_of_lt' small, Nat.mod_eq_of_lt fits]

end DoRunner
