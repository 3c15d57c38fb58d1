import DoRunner.Proofs.Chunk.Framing
import DoRunner.Session

/-!
# How a buffer is executed

Executing a buffer ends early in four ways: it is a meta command, it is not complete, it has no
statements, or its script cannot be written. None of them depends on the transport. Otherwise its
chunk is run, and what comes of it is what is recovered from the capture.
-/

namespace DoRunner

/-- A buffer that starts with any other sign is no shortcut. -/
theorem notShortcut_of_head {c : Char} {rest : Text} (notPercent : c ≠ '%') (notQuestion : c ≠ '?')
    (ink : isBlank c = false) :
    MetaCommand.ofCode? (c :: rest) = none ∧ helpCommand? (c :: rest) = none := by
  have begins : Text.trim (c :: rest) <+: c :: rest := by
    have kept : Text.trimStart (c :: rest) = c :: rest := by
      apply Text.trimStart_of_head
      intro d first
      rwa [← Option.some.inj first]
    rw [Text.trim, kept]
    exact Text.trimEnd_isPrefix _
  unfold MetaCommand.ofCode? helpCommand?
  cases trimmed : Text.trim (c :: rest) with
  | nil => exact ⟨rfl, rfl⟩
  | cons d more =>
    rw [trimmed] at begins
    obtain rfl : d = c := (List.cons_prefix_cons.mp begins).1
    refine ⟨?_, ?_⟩
    · split
      · rename_i sign
        exact absurd (List.cons.inj sign).1 notPercent
      · rfl
    · split
      · rename_i sign
        exact absurd (List.cons.inj sign).1 notQuestion
      · rfl

end DoRunner

namespace DoRunner.Session

/-! ## Preparing -/

theorem prepare_eq_ok {τ : Type} {s s' : Session τ} {code : Text} {chunk : Chunk}
    (h : s.prepare code = (.ok chunk, s')) :
    ∃ scan context, chunk = chunkOf s.settings scan ∧ s' = { s with context } := by
  unfold prepare at h
  dsimp only at h
  split at h
  · exact absurd (Prod.ext_iff.mp h).1 (by simp)
  · obtain ⟨hchunk, hs⟩ := Prod.ext_iff.mp h
    exact ⟨_, _, (Except.ok.inj hchunk).symm, hs.symm⟩

theorem prepare_of_complete {τ : Type} (s : Session τ) {code : Text}
    (h : (Analysis.ofCode code s.context.mode).incomplete? = none) :
    s.prepare code =
      (.ok (assemble (Analysis.ofCode code s.context.mode) s.settings s.context).1,
        { s with context := (assemble (Analysis.ofCode code s.context.mode) s.settings s.context).2 }) := by
  unfold prepare
  dsimp only
  rw [h]

/-! ## Running -/

/-- What is sent line by line needs no script. -/
theorem writeScript_of_direct {τ : Type} (s : Session τ) {chunk : Chunk}
    (direct : chunk.indirect = false) (disk : Disk) : s.writeScript chunk disk = .ok disk := by
  rw [writeScript, direct, if_neg (by decide)]

/-- A buffer that is no meta command is run as it is prepared, once its script is written. -/
theorem execute_of_prepared {τ : Type} [Transport τ] {h : Host (Session τ)} {s : Session τ}
    {code : Text} {chunk : Chunk} {disk : Disk} (notMeta : MetaCommand.ofCode? code = none)
    (prepared : h.guest.prepare ((helpCommand? code).getD code) = (.ok chunk, s))
    (nonempty : chunk.body ≠ []) (written : s.writeScript chunk h.disk = .ok disk) :
    execute code h = runChunk chunk ⟨s, disk⟩ := by
  have isEmpty : chunk.isEmpty = false := by
    rw [Chunk.isEmpty, List.isEmpty_eq_false_iff]
    exact nonempty
  rw [execute, notMeta]
  dsimp only
  rw [executeCode, prepared]
  dsimp only
  rw [isEmpty, if_neg (by decide), written]

/-- The code that a buffer is executed as: a request for help is the command it stands for. -/
def executedCode (code : Text) : Text := (helpCommand? code).getD code

/-- The chunk that a buffer is assembled to. -/
def chunkFor (settings : AssemblySettings) (context : SessionContext) (code : Text) : Chunk :=
  (assemble (Analysis.ofCode (executedCode code) context.mode) settings context).1

/-- What carries on after a buffer. -/
def contextAfter (settings : AssemblySettings) (context : SessionContext) (code : Text) :
    SessionContext :=
  (assemble (Analysis.ofCode (executedCode code) context.mode) settings context).2

section Runs

variable {τ : Type} [Transport τ]

/-- A buffer has a chunk to run, and `disk` is the disk with its script. -/
structure IsRun (code : Text) (h : Host (Session τ)) (disk : Disk) : Prop where
  notMeta : MetaCommand.ofCode? code = none
  complete : (Analysis.ofCode (executedCode code) h.guest.context.mode).incomplete? = none
  nonempty : (chunkFor h.guest.settings h.guest.context code).body ≠ []
  /-- Its script is written, where it needs one. -/
  written : h.guest.writeScript (chunkFor h.guest.settings h.guest.context code) h.disk = .ok disk

omit [Transport τ] in
theorem writeScript_eq_error {s : Session τ} {chunk : Chunk} {disk : Disk} {e : TransportError}
    (h : s.writeScript chunk disk = .error e) :
    e = .io ("writing ".toList ++ s.settings.cache.includeScript) := by
  rw [writeScript] at h
  split at h
  · dsimp only at h
    split at h
    · exact absurd h (by simp)
    · exact (Except.error.inj h).symm
  · exact absurd h (by simp)

theorem execute_of_isRun {code : Text} {h : Host (Session τ)} {disk : Disk}
    (run : IsRun code h disk) :
    execute code h = runChunk (chunkFor h.guest.settings h.guest.context code)
      ⟨{ h.guest with context := contextAfter h.guest.settings h.guest.context code }, disk⟩ :=
  execute_of_prepared run.notMeta (h.guest.prepare_of_complete run.complete) run.nonempty
    run.written

/-- What comes of a buffer without a chunk to run. -/
def early (settings : AssemblySettings) (context : SessionContext) (code : Text) :
    ExecutionResult :=
  match MetaCommand.ofCode? code with
  | some command => { ExecutionResult.nothing with metaCommand := some command }
  | none =>
    match (Analysis.ofCode (executedCode code) context.mode).incomplete? with
    | some reason => { ExecutionResult.nothing with error := some (.incomplete reason) }
    | none =>
      if (chunkFor settings context code).body = [] then .nothing
      else failed (.io ("writing ".toList ++ settings.cache.includeScript))

/-- The session that carries on after a complete buffer, whatever becomes of its chunk. -/
def carriedOn (code : Text) (s : Session τ) : Session τ :=
  { s with context := contextAfter s.settings s.context code }

/-- The ways in which executing a buffer ends, each with the result and the host it leaves. -/
inductive Ends (code : Text) (h : Host (Session τ)) : ExecutionResult → Host (Session τ) → Prop where
  | handedBack {command : MetaCommand} (isMeta : MetaCommand.ofCode? code = some command) :
      Ends code h { ExecutionResult.nothing with metaCommand := some command } h
  | incomplete {reason : IncompleteReason} (notMeta : MetaCommand.ofCode? code = none)
      (found : (Analysis.ofCode (executedCode code) h.guest.context.mode).incomplete?
        = some reason) :
      Ends code h { ExecutionResult.nothing with error := some (.incomplete reason) } h
  | empty (notMeta : MetaCommand.ofCode? code = none)
      (complete : (Analysis.ofCode (executedCode code) h.guest.context.mode).incomplete? = none)
      (empty : (chunkFor h.guest.settings h.guest.context code).body = []) :
      Ends code h .nothing ⟨carriedOn code h.guest, h.disk⟩
  | unwritten (notMeta : MetaCommand.ofCode? code = none)
      (complete : (Analysis.ofCode (executedCode code) h.guest.context.mode).incomplete? = none)
      (nonempty : (chunkFor h.guest.settings h.guest.context code).body ≠ [])
      (notRun : ∀ disk, ¬ IsRun code h disk) :
      Ends code h (failed (.io ("writing ".toList ++ h.guest.settings.cache.includeScript)))
        ⟨carriedOn code h.guest, h.disk⟩
  | run {disk : Disk} (run : IsRun code h disk) :
      Ends code h
        (runChunk (chunkFor h.guest.settings h.guest.context code) ⟨carriedOn code h.guest, disk⟩).1
        (runChunk (chunkFor h.guest.settings h.guest.context code) ⟨carriedOn code h.guest, disk⟩).2

/-- **Executing ends in one of these ways.** -/
theorem execute_ends (code : Text) (h : Host (Session τ)) :
    Ends code h (execute code h).1 (execute code h).2 := by
  cases notMeta : MetaCommand.ofCode? code with
  | some command =>
    rw [execute, notMeta]
    exact .handedBack notMeta
  | none =>
    rw [execute, notMeta]
    dsimp only
    rw [← executedCode, executeCode]
    cases complete : (Analysis.ofCode (executedCode code) h.guest.context.mode).incomplete? with
    | some reason =>
      have unprepared : h.guest.prepare (executedCode code)
          = (.error (.incomplete reason), h.guest) := by
        unfold prepare
        dsimp only
        rw [complete]
      rw [unprepared]
      exact .incomplete notMeta complete
    | none =>
      have prepared : h.guest.prepare (executedCode code) =
          (.ok (chunkFor h.guest.settings h.guest.context code), carriedOn code h.guest) :=
        h.guest.prepare_of_complete complete
      rw [prepared]
      dsimp only
      by_cases empty : (chunkFor h.guest.settings h.guest.context code).body = []
      · have isEmpty : (chunkFor h.guest.settings h.guest.context code).isEmpty = true :=
          List.isEmpty_iff.mpr empty
        rw [if_pos isEmpty]
        exact .empty notMeta complete empty
      · have isEmpty : ¬ (chunkFor h.guest.settings h.guest.context code).isEmpty = true :=
          fun isEmpty => empty (List.isEmpty_iff.mp isEmpty)
        rw [if_neg isEmpty]
        -- carrying on changes nothing that writing the script depends on
        rw [show writeScript (carriedOn code h.guest) _ h.disk = h.guest.writeScript _ h.disk from rfl]
        cases written : h.guest.writeScript (chunkFor h.guest.settings h.guest.context code) h.disk with
        | ok disk => exact .run ⟨notMeta, complete, empty, written⟩
        | error e =>
          rw [writeScript_eq_error written]
          refine .unwritten notMeta complete empty fun disk run => ?_
          rw [run.written] at written
          exact absurd written (by simp)

/-- **A buffer without a chunk to run comes to the same over every transport.** -/
theorem execute_of_not_isRun {code : Text} {h : Host (Session τ)}
    (notRun : ∀ disk, ¬ IsRun code h disk) :
    (execute code h).1 = early h.guest.settings h.guest.context code := by
  have ends := execute_ends code h
  generalize (execute code h).1 = result, (execute code h).2 = after at ends
  unfold early
  cases ends with
  | handedBack isMeta => rw [isMeta]
  | incomplete notMeta found => rw [notMeta, found]
  | empty notMeta complete empty => rw [notMeta, complete, if_pos empty]
  | unwritten notMeta complete nonempty => rw [notMeta, complete, if_neg nonempty]
  | run run => exact absurd run (notRun _)

omit [Transport τ] in
/-- What is sent line by line is run where it is. -/
theorem isRun_iff_of_direct (h : Host (Session τ)) {code : Text} {disk : Disk}
    (notMeta : MetaCommand.ofCode? code = none)
    (complete : (Analysis.ofCode (executedCode code) h.guest.context.mode).incomplete? = none)
    (nonempty : (chunkFor h.guest.settings h.guest.context code).body ≠ [])
    (direct : (chunkFor h.guest.settings h.guest.context code).indirect = false) :
    IsRun code h disk ↔ disk = h.disk := by
  have written := h.guest.writeScript_of_direct direct h.disk
  constructor
  · intro run
    exact Except.ok.inj (run.written.symm.trans written)
  · rintro rfl
    exact ⟨notMeta, complete, nonempty, written⟩

end Runs

/-- The lines that are sent of a buffer, where they may be found by evaluation. -/
theorem submissionLines_of_body {settings : AssemblySettings} {context : SessionContext}
    {code : Text} (lines : List Text) (nonempty : (chunkFor settings context code).body ≠ [])
    (direct : (chunkFor settings context code).indirect = false)
    (h : (Text.lines (Text.unlines (chunkFor settings context code).body)).filter (· ≠ [])
      = lines) :
    (chunkFor settings context code).submissionLines
      = lines ++ [(chunkFor settings context code).sentinel] := by
  rw [← h]
  exact submissionLines_of_not_indirect nonempty direct

/-- What becomes of a chunk is what is recovered from its capture. -/
theorem runChunk_of_run {τ : Type} [Transport τ] (s : Session τ) (disk : Disk) (chunk : Chunk)
    {capture : RawCapture} {after : Host τ}
    (h : Transport.run chunk (⟨s.transport, disk⟩ : Host τ) = (⟨capture, none⟩, after)) :
    runChunk chunk ⟨s, disk⟩ =
      (s.resultOf chunk ⟨capture, none⟩, ⟨{ s with transport := after.guest }, after.disk⟩) := by
  unfold runChunk
  dsimp only
  rw [h]
  rfl

end DoRunner.Session
