import DoRunner.Proofs.Chunk.Framing
import DoRunner.Proofs.Source.Tiling

/-!
# What is sent and what is expected

Whoever sends a chunk relies on the sentinel being the last line, and whoever reads the output relies
on the expected echoes being those of the lines that ran. The two lists are put together apart from
each other, and this module shows that they mirror each other (`assemble_framed`).

That takes two things besides the frames themselves. Every line of a body is a single line, as long
as the settings bring no line feed into an injected one; so a body that is sent, or written to the
script, is cut into its own lines again. And a body that is sent line by line expects nothing but
statements: a line that belongs to a block, and one under a prefix that may hide its echo, has the
whole body included (`statement_of_direct`). The triggers for that look at the tokens and at the
heads of the lines, just as the kinds of echo do, but each on its own.
-/

namespace DoRunner

/-! ## Lines that have the body included -/

/-- A prefix that silences a command is one that changes its echo. -/
theorem prefixed_of_silenced {before silent : Bool} {t : Text} (h : silent = true → before = true)
    (silenced : (headFrom before silent t).silenced = true) :
    (headFrom before silent t).prefixed = true := by
  fun_induction headFrom before silent t with
  | case1 before silent t word none => exact h silenced
  | case2 before silent t word some echo ih => exact ih (fun _ => rfl) silenced
  | case3 before silent t word some echo group front more cut ih => exact ih h silenced
  | case4 before silent t word some echo group cut => exact h silenced
  | case5 before silent t word some echo group => exact h silenced

theorem Token.exists_mark_of_mem {marks : List Mark} {token : Token} (m : token ∈ ofMarks marks) :
    ∃ mark ∈ marks, mark.kind = token.kind := by
  obtain ⟨c, text, same⟩ := List.exists_cons_of_ne_nil (ne_nil_of_mem_ofMarks m)
  refine ⟨⟨token.kind, c⟩, ?_, rfl⟩
  rw [← flatMap_marks marks]
  refine List.mem_flatMap.mpr ⟨token, m, List.mem_map.mpr ⟨c, ?_, rfl⟩⟩
  rw [same]
  exact List.mem_cons_self

namespace BodyLine

/-- **In a text without blocks, no line belongs to one.** -/
theorem block_of_noBlock {scan : BlockScan} (h : scan.hasBlock = false) {line : BodyLine}
    (m : line ∈ ofScan scan) : line.block = none := by
  have noToken : ∀ token ∈ scan.tokens, token.kind ≠ .blockBody := by
    intro token mt inBlock
    obtain ⟨mark, mm, kind⟩ := Token.exists_mark_of_mem mt
    have found : scan.hasBlock = true :=
      List.any_eq_true.mpr ⟨mark, mm, beq_iff_eq.mpr (kind.trans inBlock)⟩
    exact absurd (h.symm.trans found) (by decide)
  have outside : LineBuilder.Every (fun line => line.block = none)
      (LineBuilder.ofTokens scan.tokens) := by
    refine LineBuilder.every_ofTokens (by rfl) fun token mt part _ line unblocked => ?_
    have plain : LineBuilder.blockOf token = none :=
      if_neg (noToken token.1 (List.fst_mem_of_mem_zipIdx mt))
    rw [plain, Option.none_or]
    exact unblocked
  obtain ⟨whole, mw, trimmed⟩ := List.mem_filterMap.mp m
  obtain ⟨-, rfl⟩ := trimmed?_eq_some_iff.mp trimmed
  exact outside whole mw

/-- A line outside blocks whose head is not silenced is echoed as a statement. -/
theorem echoKind_of_plain {lines : List BodyLine} {line : BodyLine} (block : line.block = none)
    (heard : (statementHead line.text).silenced = false) :
    line.echoKind lines = .statement ∧ line.injectedKind lines = .statement := by
  have outside : line.inSilentBlock lines = false := by
    rw [inSilentBlock, block]
    rfl
  rw [echoKind, injectedKind, outside, heard, block]
  exact ⟨rfl, rfl⟩

end BodyLine

section Frames

variable {settings : AssemblySettings} {scan : BlockScan}

theorem indirect_chunkOf (h : (chunkOf settings scan).body ≠ []) :
    (chunkOf settings scan).indirect
      = needsScript settings scan (BodyLine.ofScan scan) (chunkOf settings scan).body := by
  rw [body_chunkOf, expectedBody] at h ⊢
  unfold chunkOf
  dsimp only
  rw [if_neg h]
  split
  · rename_i needed
    rw [needed]
  · rename_i unneeded
    rw [Bool.eq_false_iff.mpr unneeded]

/-- **A body that is sent line by line is echoed as statements.** A line of a block, or one whose echo
may be missing, has the body included. -/
theorem statement_of_direct (direct : (chunkOf settings scan).indirect = false) {e : ExpectedLine}
    (m : e ∈ (chunkOf settings scan).exclusion) : e.kind = .statement := by
  rcases chunkOf_cases settings scan with ⟨-, -, -, hx⟩ | ⟨hb, -, -, hx⟩ | ⟨-, hi, -⟩
  · rw [hx] at m
    exact absurd m List.not_mem_nil
  · rw [indirect_chunkOf hb, needsScript, Bool.or_eq_false_iff, Bool.or_eq_false_iff] at direct
    obtain ⟨⟨noBlock, noPrefix⟩, -⟩ := direct
    rw [hx, expectedBody] at m
    obtain ⟨line, ml, me⟩ := List.mem_flatMap.mp m
    have heard : (statementHead line.text).silenced = false := by
      rw [Bool.eq_false_iff]
      intro silenced
      exact List.any_eq_false.mp noPrefix line ml (prefixed_of_silenced (fun h => h) silenced)
    obtain ⟨own, injected⟩ :=
      @BodyLine.echoKind_of_plain (BodyLine.ofScan scan) line (BodyLine.block_of_noBlock noBlock ml)
        heard
    rw [withInjected, own, injected] at me
    dsimp only at me
    split at me
    · rcases List.mem_cons.mp me with rfl | me
      · rfl
      · rcases List.mem_cons.mp me with rfl | me
        · rfl
        · rw [List.mem_singleton.mp me]
    · rw [List.mem_singleton.mp me]
  · exact absurd (hi.symm.trans direct) (by decide)

end Frames

/-! ## Single lines -/

theorem Text.notMem_lf_ofNat (n : Nat) : '\n' ∉ Text.ofNat n := by
  intro m
  exact absurd (Nat.isDigit_of_mem_toDigits (by decide) (by decide) m) (by decide)

theorem Path.notMem_lf_forCommands {path : Text} (h : '\n' ∉ path) :
    '\n' ∉ Path.forCommands path := by
  intro m
  obtain ⟨c, mc, shown⟩ := List.mem_map.mp m
  split at shown
  · exact absurd shown (by decide)
  · exact h (shown ▸ mc)

theorem Path.notMem_lf_join {directory inner : Text} (h : '\n' ∉ directory) (hi : '\n' ∉ inner) :
    '\n' ∉ Path.join directory inner := by
  unfold join
  split
  · exact hi
  · split
    · exact fun m => (List.mem_append.mp m).elim h hi
    · intro m
      rcases List.mem_append.mp m with m | m
      · exact h m
      · rcases List.mem_cons.mp m with e | m
        · exact absurd e (by decide)
        · exact hi m

theorem notMem_lf_includeLine {cache : CachePaths} (h : '\n' ∉ cache.root) :
    '\n' ∉ includeLine cache := by
  have script : '\n' ∉ cache.includeForCommands :=
    Path.notMem_lf_forCommands (Path.notMem_lf_join h (by decide))
  unfold includeLine
  rw [List.mem_append, List.mem_append]
  rintro ((m | m) | m)
  · exact absurd m (by decide)
  · exact script m
  · exact absurd m (by decide)

namespace GraphExport

theorem notMem_lf_sizeOption {name : String} (h : '\n' ∉ name.toList) (size : Option Nat) :
    '\n' ∉ sizeOption name size := by
  cases size with
  | none => exact List.not_mem_nil
  | some n =>
    have number := Text.notMem_lf_ofNat n
    unfold sizeOption
    simp only [List.mem_append, List.mem_cons, not_or]
    exact ⟨⟨⟨by decide, h⟩, by decide, number⟩, by decide, List.not_mem_nil⟩

/-- An export line is a single line where its directory and its extension are. -/
theorem notMem_lf_exportLine {g : GraphExport} {cache : CachePaths} (root : '\n' ∉ cache.root)
    (extension : '\n' ∉ g.extension) : '\n' ∉ g.exportLine cache := by
  have width : '\n' ∉ sizeOption "width" g.width := notMem_lf_sizeOption (by decide) g.width
  have height : '\n' ∉ sizeOption "height" g.height := notMem_lf_sizeOption (by decide) g.height
  have directory : '\n' ∉ cache.rootForCommands := Path.notMem_lf_forCommands root
  have stem : '\n' ∉ CachePaths.graphStem := by decide
  have number : '\n' ∉ graphCounterValue := by decide
  unfold exportLine
  simp only [List.mem_append, List.mem_cons, not_or]
  exact ⟨⟨⟨⟨⟨⟨⟨⟨by decide, directory⟩, by decide, stem⟩, number⟩, by decide, extension⟩, by decide⟩,
    width⟩, height⟩, by decide⟩

end GraphExport

section Frames

variable {settings : AssemblySettings} {scan : BlockScan}

/-- Where the settings bring no line feed into an injected line, a body is made of single lines. -/
theorem notMem_lf_of_mem_body (root : '\n' ∉ settings.cache.root)
    (extension : '\n' ∉ settings.graph.extension) {line : Text}
    (m : line ∈ (chunkOf settings scan).body) : '\n' ∉ line := by
  rw [body_chunkOf] at m
  obtain ⟨e, me, rfl⟩ := List.mem_map.mp m
  rcases mem_expectedBody me with ⟨own, mo, he⟩ | he | he
  · rw [he]
    exact (BodyLine.trim_text mo).2.2
  · rw [he]
    exact GraphExport.notMem_lf_exportLine root extension
  · rw [he]
    decide

theorem trim_of_mem_body {line : Text} (m : line ∈ (chunkOf settings scan).body) :
    Text.trim line = line := by
  rw [body_chunkOf] at m
  obtain ⟨e, me, rfl⟩ := List.mem_map.mp m
  exact trim_of_mem_expectedBody me

/-- Of a body that is included, one line is sent before the sentinel, and its echo is expected before
those of the body. -/
theorem frame_of_indirect (h : (chunkOf settings scan).body ≠ [])
    (indirect : (chunkOf settings scan).indirect = true) (root : '\n' ∉ settings.cache.root) :
    (chunkOf settings scan).submissionLines
        = [includeLine settings.cache, (chunkOf settings scan).sentinel] ∧
      (chunkOf settings scan).exclusion.map (·.text)
        = includeLine settings.cache :: (chunkOf settings scan).body := by
  rcases chunkOf_cases settings scan with ⟨hb, -⟩ | ⟨-, hi, -⟩ | ⟨-, -, hs, hx⟩
  · exact absurd hb h
  · exact absurd (hi.symm.trans indirect) (by decide)
  · refine ⟨?_, by rw [hx, List.map_cons, body_chunkOf]⟩
    rw [submissionLines_of_submission hs, Text.lines_of_notMem (notMem_lf_includeLine root)]
    rfl

/-- **The script is the body,** each line of which it ends with a line feed. -/
theorem lines_scriptText {chunk : Chunk} (h : chunk.body ≠ [])
    (oneLine : ∀ line ∈ chunk.body, '\n' ∉ line) :
    Text.lines chunk.scriptText = chunk.body ++ [[]] := by
  rw [Chunk.scriptText, Text.lines_append_lf, Text.lines_unlines h oneLine]
  rfl

end Frames

/-! ## The frame of a chunk -/

/-- **What is expected mirrors what is sent.** A chunk without a body sends nothing and expects
nothing. Otherwise its body is made of trimmed single lines, which are what the script is cut into
at its line feeds, with nothing behind the last; and either the lines of the body are sent and
expected, each of them as a statement, or the line that includes them is sent, and expected before
them. The sentinel follows what is sent. -/
theorem assemble_framed (code : Text) (mode : DelimiterMode) {settings : AssemblySettings}
    (context : SessionContext) (root : '\n' ∉ settings.cache.root)
    (extension : '\n' ∉ settings.graph.extension) :
    let chunk := (assemble (Analysis.ofCode code mode) settings context).1
    (chunk.isEmpty = true → chunk.submission = [] ∧ chunk.exclusion = []) ∧
    (chunk.isEmpty = false →
      (∀ line ∈ chunk.body, line ≠ [] ∧ Text.trim line = line ∧ '\n' ∉ line) ∧
      Text.lines chunk.scriptText = chunk.body ++ [[]] ∧
      (chunk.indirect = false →
        chunk.submissionLines = chunk.body ++ [chunk.sentinel] ∧
        chunk.exclusion.map (·.text) = chunk.body ∧
        ∀ e ∈ chunk.exclusion, e.kind = .statement) ∧
      (chunk.indirect = true →
        chunk.submissionLines = [includeLine settings.cache, chunk.sentinel] ∧
        chunk.exclusion.map (·.text) = includeLine settings.cache :: chunk.body)) := by
  have made : (assemble (Analysis.ofCode code mode) settings context).1
      = chunkOf settings (Analysis.ofCode code mode).blocks := rfl
  rw [made]
  intro chunk
  have oneLine : ∀ line ∈ chunk.body, '\n' ∉ line :=
    fun line m => notMem_lf_of_mem_body root extension m
  constructor
  · intro empty
    rcases chunkOf_cases settings (Analysis.ofCode code mode).blocks with
      ⟨-, -, nothing⟩ | ⟨body, -⟩ | ⟨body, -⟩
    · exact nothing
    · exact absurd (List.isEmpty_iff.mp empty) body
    · exact absurd (List.isEmpty_iff.mp empty) body
  · intro nonempty
    have body : chunk.body ≠ [] := List.isEmpty_eq_false_iff.mp nonempty
    refine ⟨?_, lines_scriptText body oneLine, ?_, ?_⟩
    · exact fun line m => ⟨ne_nil_of_mem_body m, trim_of_mem_body m, oneLine line m⟩
    · intro direct
      exact ⟨submissionLines_of_direct body direct oneLine, exclusion_of_not_indirect body direct,
        fun e m => statement_of_direct direct m⟩
    · exact fun indirect => frame_of_indirect body indirect root

/-- The frame of a quiet block that draws: an export line is injected into the block, and the block
is included. -/
theorem assemble_framed_quietGraph :
    let settings := AssemblySettings.default ⟨"c".toList⟩
    let chunk := (assemble (Analysis.ofCode "quietly \x7b\nscatter y x\n\x7d".toList .newline) settings
      .initial).1
    ('\n' ∉ settings.cache.root ∧ '\n' ∉ settings.graph.extension) ∧
    chunk.isEmpty = false ∧ chunk.indirect = true ∧
    chunk.submissionLines = [includeLine settings.cache, chunk.sentinel] ∧
    chunk.exclusion.map (·.text) = includeLine settings.cache :: chunk.body ∧
    Text.lines chunk.scriptText = chunk.body ++ [[]] ∧ chunk.body.length = 5 := by
  intro settings chunk
  have root : '\n' ∉ settings.cache.root := by decide
  have extension : '\n' ∉ settings.graph.extension := by decide
  have facts : chunk.isEmpty = false ∧ chunk.indirect = true ∧ chunk.body.length = 5 := by
    decide +kernel
  obtain ⟨nonempty, indirect, length⟩ := facts
  obtain ⟨-, script, -, included⟩ :=
    (assemble_framed "quietly \x7b\nscatter y x\n\x7d".toList .newline .initial root extension).2
      nonempty
  obtain ⟨sent, expected⟩ := included indirect
  exact ⟨⟨root, extension⟩, nonempty, indirect, sent, expected, script, length⟩

end DoRunner
