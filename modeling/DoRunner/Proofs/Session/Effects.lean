import DoRunner.Proofs.Disk
import DoRunner.Proofs.Session.Execution

/-!
# What executing a buffer does

A transport under observation does what it does and keeps a record of its calls. Over it one can say
what a buffer has done to everything around it: to the transport, to the disk, and to what the
session carries on (`execute_effects`).
-/

namespace DoRunner

/-- A call of a transport, with the disk at that time where the call may read it. -/
inductive TransportCall where
  | run (chunk : Chunk) (disk : Disk)
  | reset
  | shutdown

/-- A transport and the calls that it has had, in order. -/
structure Observed (τ : Type) where
  transport : τ
  calls : List TransportCall

namespace Observed

variable {τ : Type}

/-- The host of a transport that is not observed. -/
def bare (h : Host (Observed τ)) : Host τ := ⟨h.guest.transport, h.disk⟩

/-- What the transport has become, with one more call on record. -/
def noted (h : Host (Observed τ)) (call : TransportCall) (after : Host τ) : Host (Observed τ) :=
  ⟨⟨after.guest, h.guest.calls ++ [call]⟩, after.disk⟩

instance [Transport τ] : Transport (Observed τ) where
  run chunk h :=
    ((Transport.run chunk (bare h)).1, noted h (.run chunk h.disk) (Transport.run chunk (bare h)).2)
  reset h := noted h .reset (Transport.reset (bare h))
  shutdown h :=
    match Transport.shutdown (bare h) with
    | .ok () after => .ok () (noted h .shutdown after)
    | .error e after => .error e (noted h .shutdown after)

/-- A session over the transport alone. -/
def unobserved (s : Session (Observed τ)) : Session τ :=
  ⟨s.transport.transport, s.settings, s.context, s.linesize⟩

end Observed

namespace Session

open Observed

variable {τ : Type}

def callsOf (h : Host (Session (Observed τ))) : List TransportCall := h.guest.transport.calls

def unobservedHost (h : Host (Session (Observed τ))) : Host (Session τ) :=
  ⟨unobserved h.guest, h.disk⟩

variable [Transport τ]

/-! ## Running a chunk -/

/-- A chunk is run once, and after a failure the transport is reset. -/
theorem runChunk_calls (chunk : Chunk) (s : Session (Observed τ)) (disk : Disk) :
    ∃ resets, callsOf (runChunk chunk ⟨s, disk⟩).2
        = s.transport.calls ++ .run chunk disk :: resets ∧
      (resets = [] ∨ resets = [.reset]) := by
  unfold runChunk
  dsimp only
  split
  · exact ⟨[.reset], List.append_assoc _ _ _, .inr rfl⟩
  · exact ⟨[], rfl, .inl rfl⟩

theorem runChunk_unobserved (chunk : Chunk) (s : Session (Observed τ)) (disk : Disk) :
    runChunk chunk ⟨unobserved s, disk⟩ =
      ((runChunk chunk ⟨s, disk⟩).1, unobservedHost (runChunk chunk ⟨s, disk⟩).2) := by
  unfold runChunk unobservedHost
  dsimp only [Transport.run, Transport.reset, noted, bare, unobserved]
  split <;> rfl

omit [Transport τ] in
/-- Writing the script leaves it to be read. -/
theorem read_of_writeScript {s : Session τ} {chunk : Chunk} {disk disk' : Disk}
    (h : s.writeScript chunk disk = .ok disk') (indirect : chunk.indirect = true) :
    disk'.read s.settings.cache.includeScript = some (Utf8.encode chunk.scriptText) := by
  rw [writeScript, if_pos indirect] at h
  dsimp only at h
  split at h
  · rename_i written
    rw [← Except.ok.inj h]
    exact Disk.read_write written
  · exact absurd h (by simp)

/-! ## Executing a buffer -/

omit [Transport τ] in
theorem prepare_unobserved (s : Session (Observed τ)) (code : Text) :
    (unobserved s).prepare code = ((s.prepare code).1, unobserved (s.prepare code).2) := by
  unfold prepare unobserved
  dsimp only
  split <;> rfl

/-- **Observing a transport changes nothing.** -/
theorem execute_unobserved (code : Text) (h : Host (Session (Observed τ))) :
    execute code (unobservedHost h) = ((execute code h).1, unobservedHost (execute code h).2) := by
  unfold execute
  split
  · rfl
  · show executeCode ((helpCommand? code).getD code) (unobservedHost h) = _
    unfold executeCode unobservedHost
    dsimp only
    rw [prepare_unobserved]
    generalize h.guest.prepare ((helpCommand? code).getD code) = prepared
    obtain ⟨chunk? | chunk, s⟩ := prepared
    · rfl
    · dsimp only
      split
      · rfl
      · rw [show (unobserved s).writeScript chunk h.disk = s.writeScript chunk h.disk from rfl]
        cases s.writeScript chunk h.disk with
        | error e => rfl
        | ok disk => exact runChunk_unobserved chunk s disk

/-- **A buffer calls the transport at most once,** for its chunk, and resets it after a failure; and
where the chunk is included from the script, the script is on the disk when the transport is
called. -/
theorem execute_calls (code : Text) (h : Host (Session (Observed τ))) :
    let chunk := chunkFor h.guest.settings h.guest.context code
    ∃ made, callsOf (execute code h).2 = callsOf h ++ made ∧
      (made = [] ∨ ∃ disk, (made = [.run chunk disk] ∨ made = [.run chunk disk, .reset]) ∧
        (chunk.indirect = true →
          disk.read h.guest.settings.cache.includeScript = some (Utf8.encode chunk.scriptText))) := by
  have ends := execute_ends code h
  generalize (execute code h).1 = result, (execute code h).2 = after at ends
  cases ends with
  | @run disk run =>
    obtain ⟨resets, calls, none | one⟩ := runChunk_calls
      (chunkFor h.guest.settings h.guest.context code) (carriedOn code h.guest) disk
    · exact ⟨_, calls, .inr ⟨disk, .inl (by rw [none]), read_of_writeScript run.written⟩⟩
    · exact ⟨_, calls, .inr ⟨disk, .inr (by rw [one]), read_of_writeScript run.written⟩⟩
  | _ => exact ⟨[], (List.append_nil _).symm, .inl rfl⟩

/-- No chunk comes back as incomplete. -/
theorem error_runChunk (chunk : Chunk) (h : Host (Session τ)) (reason : IncompleteReason) :
    (runChunk chunk h).1.error ≠ some (.incomplete reason) := by
  unfold runChunk resultOf
  dsimp only
  split
  · simp
  · intro error
    obtain ⟨_, -, other⟩ := Option.map_eq_some_iff.mp error
    exact absurd other (by simp)

section Verdict

variable {code : Text} {h : Host (Session τ)}

/-- What is refused leaves everything as it was. -/
theorem execute_of_incomplete
    (incomplete : (Analysis.ofCode (executedCode code) h.guest.context.mode).incomplete? ≠ none) :
    (execute code h).2 = h := by
  have ends := execute_ends code h
  generalize (execute code h).1 = result, (execute code h).2 = after at ends
  cases ends with
  | handedBack isMeta => rfl
  | incomplete _ found => rfl
  | empty _ complete => exact absurd complete incomplete
  | unwritten _ complete => exact absurd complete incomplete
  | run run => exact absurd run.complete incomplete

variable (notMeta : MetaCommand.ofCode? code = none)

include notMeta

/-- Executing refuses just what the analysis finds incomplete. -/
theorem error_execute (reason : IncompleteReason) :
    (execute code h).1.error = some (.incomplete reason) ↔
      (Analysis.ofCode (executedCode code) h.guest.context.mode).incomplete? = some reason := by
  have ends := execute_ends code h
  generalize (execute code h).1 = result, (execute code h).2 = after at ends
  cases ends with
  | handedBack isMeta =>
    rw [notMeta] at isMeta
    exact absurd isMeta (by simp)
  | @incomplete found _ why =>
    rw [why]
    constructor
    · intro error
      rw [ExecutionError.incomplete.inj (Option.some.inj error)]
    · intro same
      rw [Option.some.inj same]
  | empty _ complete =>
    rw [complete]
    simp [ExecutionResult.nothing]
  | unwritten _ complete =>
    rw [complete]
    simp [failed]
  | run run =>
    rw [run.complete]
    exact ⟨fun error => absurd error (error_runChunk _ _ reason), fun found => absurd found (by simp)⟩

/-- What is complete is carried on from, whether or not it can be run. -/
theorem execute_context
    (complete : (Analysis.ofCode (executedCode code) h.guest.context.mode).incomplete? = none) :
    (execute code h).2.guest.context = contextAfter h.guest.settings h.guest.context code := by
  have ends := execute_ends code h
  generalize (execute code h).1 = result, (execute code h).2 = after at ends
  cases ends with
  | handedBack isMeta =>
    rw [notMeta] at isMeta
    exact absurd isMeta (by simp)
  | incomplete _ found =>
    rw [complete] at found
    exact absurd found (by simp)
  | _ => rfl

end Verdict

/-- **What a buffer does is what the verdict on it says.** For a buffer that is no shortcut the
session refuses what is not complete, with the reason that the verdict gives and without any effect;
and when it is complete, the delimiter mode and the count of graphs go on as announced, whatever
becomes of the chunk. The number is exact where the count has room, as that of a session has, which
starts at zero, until all its bits are used up. A meta command is handed back without any effect. -/
theorem execute_effects (code : Text) (h : Host (Session (Observed τ))) :
    let s := h.guest
    let verdict := s.isComplete code
    let result := (execute code h).1
    let after := (execute code h).2
    execute code (unobservedHost h) = (result, unobservedHost after) ∧
    (∀ command, MetaCommand.ofCode? code = some command →
      result = { ExecutionResult.nothing with metaCommand := some command } ∧ after = h) ∧
    (MetaCommand.ofCode? code = none → helpCommand? code = none →
      (∀ reason, result.error = some (.incomplete reason) ↔ verdict.incomplete = some reason) ∧
      (verdict.incomplete ≠ none → after = h) ∧
      (verdict.incomplete = none →
        let chunk := chunkFor s.settings s.context code
        let statements := Text.trimmedLines (Analysis.ofCode code s.context.mode).cleanText
        let exports := statements.countP s.settings.plots.isPlotLine
        s.prepare code = (.ok chunk, { s with context := after.guest.context }) ∧
        after.guest.context.mode = verdict.nextMode ∧
        chunk.body = statements.flatMap s.settings.linesOf ∧
        chunk.plotsInjected = .ofNat exports ∧
        after.guest.context.plotCounter
          = s.context.plotCounter + .ofNat chunk.plotsInjected.toNat ∧
        (s.context.HasRoom exports → after.guest.context.plotCounter.toNat
          = s.context.plotCounter.toNat + exports))) ∧
    let chunk := chunkFor s.settings s.context code
    ∃ made, callsOf after = callsOf h ++ made ∧
      (made = [] ∨ ∃ disk, (made = [.run chunk disk] ∨ made = [.run chunk disk, .reset]) ∧
        (chunk.indirect = true →
          disk.read s.settings.cache.includeScript = some (Utf8.encode chunk.scriptText))) := by
  intro s verdict result after
  refine ⟨execute_unobserved code h, ?_, ?_, execute_calls code h⟩
  · intro command isMeta
    have handedBack : execute code h
        = ({ ExecutionResult.nothing with metaCommand := some command }, h) := by
      rw [execute, isMeta]
    exact Prod.ext_iff.mp handedBack
  · intro notMeta notHelp
    have asIs : executedCode code = code := by rw [executedCode, notHelp, Option.getD_none]
    have verdict_eq : verdict = ⟨(Analysis.ofCode code s.context.mode).incomplete?,
        (Analysis.ofCode code s.context.mode).finalMode⟩ := by
      show checkComplete code s.context.mode = _
      rw [checkComplete, notMeta, notHelp, if_neg (by decide)]
    rw [verdict_eq]
    have refused := @error_execute _ _ code h notMeta
    have unchanged := @execute_of_incomplete _ _ code h
    have carried := @execute_context _ _ code h notMeta
    rw [asIs] at refused unchanged carried
    refine ⟨refused, unchanged, fun complete => ?_⟩
    have context := carried complete
    have chunk : chunkFor s.settings s.context code
        = (assemble (Analysis.ofCode code s.context.mode) s.settings s.context).1 := by
      rw [chunkFor, asIs]
    have next : contextAfter s.settings s.context code
        = (assemble (Analysis.ofCode code s.context.mode) s.settings s.context).2 := by
      rw [contextAfter, asIs]
    dsimp only
    rw [context, chunk, next]
    have counted := Analysis.plotsInjected_assemble code s.context.mode s.settings s.context
    exact ⟨s.prepare_of_complete complete, rfl, Analysis.body_assemble _ _ _ _, counted, rfl,
      fun room => (room.toNat counted).2⟩

/-- A transport whose program has gone. -/
structure Gone where

instance : Transport Gone where
  run _ h := (⟨.empty, some .closed⟩, h)
  reset h := h
  shutdown h := .ok () h

/-- A block that draws, over a program that has gone: the script is there when the transport is
called, and the graph is counted although nothing has drawn it. -/
theorem execute_effects_gone :
    let disk := Disk.empty.put ["c".toList, "work".toList] (some .directory)
    let h : Host (Session (Observed Gone)) :=
      ⟨⟨⟨⟨⟩, []⟩, .default ⟨"c".toList⟩, .initial, 80⟩, disk⟩
    let code := "if x \x7b\nscatter y x\n\x7d".toList
    let after := (execute code h).2
    h.guest.isComplete code = ⟨none, .newline⟩ ∧ after.guest.context = ⟨.newline, 1⟩ ∧
    ∃ chunk disk, callsOf after = [.run chunk disk, .reset] ∧ chunk.indirect = true ∧
      disk.read "c/include.do".toList = some (Utf8.encode chunk.scriptText) := by
  intro disk h code after
  have complete : h.guest.isComplete code = ⟨none, .newline⟩ := by decide +kernel
  have indirect : (chunkFor h.guest.settings h.guest.context code).indirect = true := by
    decide +kernel
  have written : ∃ disk', h.guest.writeScript (chunkFor h.guest.settings h.guest.context code) h.disk
      = .ok disk' := by
    rw [writeScript, if_pos indirect]
    exact ⟨_, rfl⟩
  obtain ⟨disk', written⟩ := written
  have run : IsRun code h disk' := ⟨by decide, by decide +kernel, by decide +kernel, written⟩
  have calls : callsOf after = [.run (chunkFor h.guest.settings h.guest.context code) disk', .reset] := by
    show callsOf (execute code h).2 = _
    rw [execute_of_isRun run]
    rfl
  obtain ⟨-, -, carried, made, all, ran⟩ := execute_effects code h
  obtain ⟨-, mode, -, -, count, -⟩ := (carried (by decide) (by decide)).2.2 (by rw [complete])
  refine ⟨complete, ?_, _, disk', calls, indirect, ?_⟩
  · show SessionContext.mk after.guest.context.mode after.guest.context.plotCounter = _
    rw [mode, count, complete]
    decide +kernel
  · rw [calls, show callsOf h = [] from rfl, List.nil_append] at all
    rw [← all] at ran
    obtain ⟨disk'', same, script⟩ := ran.resolve_left (by simp)
    have disks : disk'' = disk' := by
      rcases same with same | same
      · exact absurd (List.cons.inj same).2 (by simp)
      · exact (TransportCall.run.inj (List.cons.inj same).1).2.symm
    rw [disks] at script
    exact script indirect

end Session

end DoRunner
