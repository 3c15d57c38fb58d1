import DoRunner.Proofs.Chunk.Body
import DoRunner.Proofs.Echo.PlainOutput

/-!
# How a chunk is framed

A chunk is one of three things: nothing at all, a body that is sent line by line, or a body that is
included by one line. In the last two the sentinel follows. This module says so once
(`chunkOf_cases`), and says what the lines of a chunk look like: trimmed, not empty, and, as long as
the settings bring no line feed into a command, single lines.
-/

namespace DoRunner

/-! ## Injected lines and the line that includes the script -/

namespace GraphExport

theorem trim_exportLine (g : GraphExport) (cache : CachePaths) :
    Text.trim (g.exportLine cache) = g.exportLine cache := by
  apply Text.trim_eq_self
  · intro c h
    have first : (g.exportLine cache).head? = some 'n' := rfl
    rw [first] at h
    rw [← Option.some.inj h]
    decide
  · intro c h
    have ends : ∃ t, g.exportLine cache = t ++ " replace".toList := ⟨_, rfl⟩
    obtain ⟨t, ht⟩ := ends
    rw [ht, List.getLast?_append] at h
    have last : c = 'e' := (Option.some.inj h).symm
    rw [last]
    decide

theorem trim_incrementLine : Text.trim incrementLine = incrementLine := by decide

end GraphExport

theorem trim_includeLine (cache : CachePaths) :
    Text.trim (includeLine cache) = includeLine cache :=
  Text.trim_enclosed (a := 'i') (b := '"') (by decide) (by decide)
    ("nclude \"".toList ++ cache.includeForCommands)

/-! ## The sentinel -/

theorem trim_sentinelOf (fingerprint : Text) :
    Text.trim (sentinelOf fingerprint) = sentinelOf fingerprint :=
  Text.trim_enclosed (by decide) (by decide) fingerprint

namespace Sha256

/-- The characters that a digest is written in. -/
def digestChars : Text := "0123456789abcdef".toList

theorem mem_digestChars (n : Nat) : Nat.digitChar (n % 16) ∈ digestChars := by
  have h : ∀ k < 16, Nat.digitChar k ∈ digestChars := by decide
  exact h _ (Nat.mod_lt n (by decide))

theorem mem_digestChars_of_mem_hexDigest {message : List UInt8} {c : Char}
    (h : c ∈ hexDigest message) : c ∈ digestChars := by
  unfold hexDigest at h
  obtain ⟨word, -, hword⟩ := List.mem_flatMap.mp h
  obtain ⟨shift, -, rfl⟩ := List.mem_map.mp hword
  exact mem_digestChars _

theorem ofText_subset (t : Text) : ∀ c ∈ ofText t, c ∈ digestChars := by
  intro c h
  exact mem_digestChars_of_mem_hexDigest h

end Sha256

/-- The sentinel of a digest holds nothing that is taken out of raw output. -/
theorem notMem_sentinelOf {fingerprint : Text} (h : ∀ c ∈ fingerprint, c ∈ Sha256.digestChars) :
    '\n' ∉ sentinelOf fingerprint ∧ '\r' ∉ sentinelOf fingerprint ∧
      '\x1b' ∉ sentinelOf fingerprint := by
  have absent : ∀ c, c ∉ Sha256.digestChars → c ≠ '\x60' → c ≠ '\'' →
      c ∉ sentinelOf fingerprint := by
    intro c hdigest hopen hclose m
    rcases List.mem_append.mp m with m | m
    · rcases List.mem_cons.mp m with rfl | m
      · exact hopen rfl
      · exact hdigest (h c m)
    · exact hclose (List.mem_singleton.mp m)
  exact ⟨absent '\n' (by decide) (by decide) (by decide),
    absent '\r' (by decide) (by decide) (by decide),
    absent '\x1b' (by decide) (by decide) (by decide)⟩

/-! ## The three frames -/

section Frames

variable (settings : AssemblySettings) (scan : BlockScan)

theorem fingerprint_chunkOf :
    (chunkOf settings scan).fingerprint = Sha256.ofText (Text.unlines (chunkOf settings scan).body) := by
  unfold chunkOf
  dsimp only
  split
  · rfl
  · split <;> rfl

/-- **A chunk is nothing, a body that is sent, or a body that is included.** -/
theorem chunkOf_cases :
    let chunk := chunkOf settings scan
    (chunk.body = [] ∧ chunk.indirect = false ∧ chunk.submission = [] ∧ chunk.exclusion = []) ∨
    (chunk.body ≠ [] ∧ chunk.indirect = false ∧
      chunk.submission = Text.unlines chunk.body ++ '\n' :: chunk.sentinel ∧
      chunk.exclusion = expectedBody settings scan) ∨
    (chunk.body ≠ [] ∧ chunk.indirect = true ∧
      chunk.submission = includeLine settings.cache ++ '\n' :: chunk.sentinel ∧
      chunk.exclusion = ⟨includeLine settings.cache, .statement⟩ :: expectedBody settings scan) := by
  unfold chunkOf expectedBody
  dsimp only
  split
  · rename_i h
    exact Or.inl ⟨h, rfl, rfl, rfl⟩
  · rename_i h
    right
    split
    · exact Or.inr ⟨h, rfl, rfl, rfl⟩
    · exact Or.inl ⟨h, rfl, rfl, rfl⟩

variable {settings scan}

/-- A line of a body is a statement line or one of the two injected ones. -/
theorem mem_expectedBody {e : ExpectedLine} (h : e ∈ expectedBody settings scan) :
    (∃ line ∈ BodyLine.ofScan scan, e.text = line.text) ∨
      e.text = settings.graph.exportLine settings.cache ∨ e.text = GraphExport.incrementLine := by
  obtain ⟨line, hline, he⟩ := List.mem_flatMap.mp h
  unfold withInjected at he
  dsimp only at he
  split at he
  · rcases List.mem_cons.mp he with rfl | he
    · exact Or.inl ⟨line, hline, rfl⟩
    · rcases List.mem_cons.mp he with rfl | he
      · exact Or.inr (Or.inl rfl)
      · rw [List.mem_singleton.mp he]
        exact Or.inr (Or.inr rfl)
  · rw [List.mem_singleton.mp he]
    exact Or.inl ⟨line, hline, rfl⟩

theorem trim_of_mem_expectedBody {e : ExpectedLine} (h : e ∈ expectedBody settings scan) :
    Text.trim e.text = e.text := by
  rcases mem_expectedBody h with ⟨line, hline, he⟩ | he | he
  · rw [he]
    exact (BodyLine.trim_text hline).1
  · rw [he]
    exact GraphExport.trim_exportLine _ _
  · rw [he]
    exact GraphExport.trim_incrementLine

theorem mem_exclusion {e : ExpectedLine} (h : e ∈ (chunkOf settings scan).exclusion) :
    e = ⟨includeLine settings.cache, .statement⟩ ∨ e ∈ expectedBody settings scan := by
  rcases chunkOf_cases settings scan with ⟨-, -, -, hx⟩ | ⟨-, -, -, hx⟩ | ⟨-, -, -, hx⟩
  · rw [hx] at h
    exact absurd h List.not_mem_nil
  · rw [hx] at h
    exact Or.inr h
  · rw [hx] at h
    exact List.mem_cons.mp h

/-- All lines whose echoes are expected are trimmed. -/
theorem trim_of_mem_exclusion {e : ExpectedLine} (h : e ∈ (chunkOf settings scan).exclusion) :
    Text.trim e.text = e.text := by
  rcases mem_exclusion h with rfl | h
  · exact trim_includeLine _
  · exact trim_of_mem_expectedBody h

theorem ne_nil_of_mem_expectedBody {e : ExpectedLine} (h : e ∈ expectedBody settings scan) :
    e.text ≠ [] := by
  rcases mem_expectedBody h with ⟨line, hline, he⟩ | he | he
  · rw [he]
    exact (BodyLine.trim_text hline).2.1
  · rw [he]
    exact List.cons_ne_nil _ _
  · rw [he]
    exact List.cons_ne_nil _ _

theorem ne_nil_of_mem_exclusion {e : ExpectedLine} (h : e ∈ (chunkOf settings scan).exclusion) :
    e.text ≠ [] := by
  rcases mem_exclusion h with rfl | h
  · exact List.cons_ne_nil _ _
  · exact ne_nil_of_mem_expectedBody h

theorem ne_nil_of_mem_body {line : Text} (h : line ∈ (chunkOf settings scan).body) :
    line ≠ [] := by
  rw [body_chunkOf] at h
  obtain ⟨e, he, rfl⟩ := List.mem_map.mp h
  exact ne_nil_of_mem_expectedBody he

theorem trim_sentinel : Text.trim (chunkOf settings scan).sentinel = (chunkOf settings scan).sentinel :=
  trim_sentinelOf _

theorem notMem_sentinel : '\n' ∉ (chunkOf settings scan).sentinel ∧
    '\r' ∉ (chunkOf settings scan).sentinel ∧ '\x1b' ∉ (chunkOf settings scan).sentinel := by
  apply notMem_sentinelOf
  rw [fingerprint_chunkOf]
  exact Sha256.ofText_subset _

/-- The sentinel comes through the terminal. -/
theorem legible_sentinel : Terminal.Legible (chunkOf settings scan).sentinel := by
  obtain ⟨hlf, hcr, hesc⟩ := @notMem_sentinel settings scan
  exact Terminal.legible_of_notMem hlf hcr hesc

theorem submissionLines_of_submission {front : Text}
    (h : (chunkOf settings scan).submission = front ++ '\n' :: (chunkOf settings scan).sentinel) :
    (chunkOf settings scan).submissionLines
      = (Text.lines front).filter (· ≠ []) ++ [(chunkOf settings scan).sentinel] := by
  have hz : '\n' ∉ (chunkOf settings scan).sentinel := legible_sentinel.oneLine
  rw [Chunk.submissionLines, h, Text.lines_append_lf, Text.lines_of_notMem hz, List.filter_append]
  congr 1

/-- What is sent of a body that is not included is the text of the body, cut into lines, and then
the sentinel. -/
theorem submissionLines_of_not_indirect (h : (chunkOf settings scan).body ≠ [])
    (direct : (chunkOf settings scan).indirect = false) :
    (chunkOf settings scan).submissionLines
        = (Text.lines (Text.unlines (chunkOf settings scan).body)).filter (· ≠ [])
          ++ [(chunkOf settings scan).sentinel] := by
  rcases chunkOf_cases settings scan with ⟨hb, -⟩ | ⟨-, -, hs, -⟩ | ⟨-, hi, -⟩
  · exact absurd hb h
  · exact submissionLines_of_submission hs
  · exact absurd (hi.symm.trans direct) (by decide)

/-- **The lines of such a body are sent,** as long as they are single ones. -/
theorem submissionLines_of_direct (h : (chunkOf settings scan).body ≠ [])
    (direct : (chunkOf settings scan).indirect = false)
    (oneLine : ∀ line ∈ (chunkOf settings scan).body, '\n' ∉ line) :
    (chunkOf settings scan).submissionLines
        = (chunkOf settings scan).body ++ [(chunkOf settings scan).sentinel] := by
  have kept : (chunkOf settings scan).body.filter (· ≠ []) = (chunkOf settings scan).body :=
    List.filter_eq_self.mpr fun line m => by simpa using ne_nil_of_mem_body m
  rw [submissionLines_of_not_indirect h direct, Text.lines_unlines h oneLine, kept]

/-- The echoes that are expected of a body that is not included are those of its lines. -/
theorem exclusion_of_not_indirect (h : (chunkOf settings scan).body ≠ [])
    (direct : (chunkOf settings scan).indirect = false) :
    (chunkOf settings scan).exclusion.map (·.text) = (chunkOf settings scan).body := by
  rcases chunkOf_cases settings scan with ⟨hb, -⟩ | ⟨-, -, -, hx⟩ | ⟨-, hi, -⟩
  · exact absurd hb h
  · rw [hx, body_chunkOf]
  · exact absurd (hi.symm.trans direct) (by decide)

end Frames

end DoRunner
