import DoRunner.Proofs.Session.Execution
import DoRunner.Proofs.Transport.Spool

/-!
# What a call leaves to the next

A call that times out may leave a reply behind that has not come yet. The reset after it forgets what
is in the buffer and reads away what has arrived, but it does not wait. So the next call begins with
an empty buffer, and what it hears is first what is owed of earlier replies, as far as it comes, and
then the replies to its own lines (`execute_after_timeout`). It hears nothing but its own replies
exactly when nothing was owed.
-/

namespace DoRunner

/-! ## Resetting -/

namespace Console

variable {σ : Type} [OrderlyChannel σ] {l : Ledger} {text : Text}

theorem transport_run (chunk : Chunk) (h : Host (Console σ)) :
    Transport.run chunk h = run chunk h := rfl

theorem transport_reset (h : Host (Console σ)) : Transport.reset h = reset h := rfl

/-- What is read away has been delivered. -/
theorem heard_drain {h : Host σ} (heard : OrderlyChannel.Heard l text h) :
    ∃ dropped, OrderlyChannel.Heard l (text ++ dropped) (drain h) := by
  fun_induction drain h generalizing text with
  | case1 h piece took h' arrives ih =>
    obtain ⟨dropped, rest⟩ := ih ((OrderlyChannel.hearing l).reads heard arrives)
    refine ⟨piece ++ dropped, ?_⟩
    rw [← List.append_assoc]
    exact rest
  | case2 h took h' silence =>
    exact ⟨[], (OrderlyChannel.hearing l).reads heard silence⟩
  | case3 h e h' fails =>
    refine ⟨[], ?_⟩
    rw [List.append_nil]
    exact (OrderlyChannel.hearing l).fails heard fails

/-- **What a run hears,** when nothing has been read before it: what was owed, as far as it comes,
and then the replies to what it asks. What it captures and lists is made of that. -/
theorem run_heard (chunk : Chunk) {h : Host (Console σ)} (empty : h.guest.buffer = []) :
    let owing := OrderlyChannel.ledger h.guest.channel
    ∃ replies heard taken lost,
      owing.Advances replies heard (OrderlyChannel.ledger (run chunk h).2.guest.channel) ∧
      Terminal.Rewritten heard (taken ++ lost) ∧
      Captured taken (run chunk h).1.capture.text ∧
      ListedFromText (run chunk h).1.capture ∧
      (owing.owed = [] → heard <+: replies.flatten) ∧
      (owing.owed ≠ [] → heard ≠ [] → heard.head? = owing.owed.head?) := by
  intro owing
  -- the ledger is opened when the run begins
  have begins : OrderlyChannel.Heard owing [] (⟨h.guest.channel, h.disk⟩ : Host σ) :=
    ⟨[], .refl _⟩
  obtain ⟨heard, taken, pending, ⟨replies, advances⟩, rewritten, captured, listed, -⟩ :=
    run_accounts (OrderlyChannel.hearing owing) chunk begins
  rw [empty] at rewritten
  refine ⟨replies, heard, taken, _, advances, rewritten, captured, listed,
    advances.delivered_of_owed_nil, ?_⟩
  -- both begin the same text
  intro some more
  obtain ⟨rest, whole⟩ := advances.delivered
  obtain ⟨x, xs, rfl⟩ := List.exists_cons_of_ne_nil more
  obtain ⟨y, ys, starts⟩ := List.exists_cons_of_ne_nil some
  rw [starts] at whole ⊢
  rw [(List.cons.inj whole).1]
  rfl

/-- What a run hears and what is read away after it is owed no longer. -/
theorem reset_run_heard (chunk : Chunk) (h : Host (Console σ)) :
    (reset (run chunk h).2).guest.buffer = [] ∧
      ∃ replies gone, (OrderlyChannel.ledger h.guest.channel).Advances replies gone
        (OrderlyChannel.ledger (reset (run chunk h).2).guest.channel) := by
  have begins : OrderlyChannel.Heard (OrderlyChannel.ledger h.guest.channel) []
      (⟨h.guest.channel, h.disk⟩ : Host σ) := ⟨[], .refl _⟩
  obtain ⟨delivered, -, -, heard, -⟩ := run_accounts (OrderlyChannel.hearing _) chunk begins
  obtain ⟨dropped, replies, advances⟩ := heard_drain heard
  exact ⟨rfl, replies, _, advances⟩

end Console

namespace Session

/-! ## A call that fails -/

section Failing

variable {τ : Type} [Transport τ] {h : Host (Session τ)} {code : Text} {disk : Disk}

/-- Only what is run can time out. -/
theorem isRun_of_timeout {w : String}
    (late : (execute code h).1.error = some (.transport (.timeout w))) :
    ∃ disk, IsRun code h disk ∧
      (Transport.run (chunkFor h.guest.settings h.guest.context code)
        (⟨h.guest.transport, disk⟩ : Host τ)).1.failure = some (.timeout w) := by
  by_cases runs : ∃ disk, IsRun code h disk
  · obtain ⟨disk, run⟩ := runs
    refine ⟨disk, run, ?_⟩
    rw [execute_of_isRun run] at late
    unfold runChunk resultOf at late
    dsimp only at late
    split at late
    · rename_i e failed
      rw [failed]
      cases late
      rfl
    · rename_i went
      -- what reconciling finds is no failure of the transport
      rw [Option.map_eq_some_iff] at late
      obtain ⟨e, -, wrong⟩ := late
      exact absurd wrong (by simp)
  · rw [execute_of_not_isRun fun disk run => runs ⟨disk, run⟩] at late
    unfold early at late
    split at late
    · exact absurd late (by simp [ExecutionResult.nothing])
    · split at late
      · exact absurd late (by simp)
      · split at late
        · exact absurd late (by simp [ExecutionResult.nothing])
        · exact absurd late (by simp [failed])

theorem execute_of_failure (run : IsRun code h disk) {e : TransportError}
    (failed : (Transport.run (chunkFor h.guest.settings h.guest.context code)
      (⟨h.guest.transport, disk⟩ : Host τ)).1.failure = some e) :
    let after := Transport.reset (Transport.run
      (chunkFor h.guest.settings h.guest.context code) (⟨h.guest.transport, disk⟩ : Host τ)).2
    (execute code h).1.error = some (.transport e) ∧
      (execute code h).2 = ⟨{ h.guest with
        context := contextAfter h.guest.settings h.guest.context code
        transport := after.guest }, after.disk⟩ := by
  rw [execute_of_isRun run]
  unfold runChunk resultOf
  dsimp only
  rw [failed]
  exact ⟨rfl, rfl⟩

theorem transcript_of_isRun (run : IsRun code h disk) :
    (execute code h).1.transcript = (Transport.run
      (chunkFor h.guest.settings h.guest.context code)
      (⟨h.guest.transport, disk⟩ : Host τ)).1.capture.transcript := by
  rw [execute_of_isRun run]
  rfl

end Failing

/-! ## The call after it -/

variable {σ : Type} [OrderlyChannel σ]

/-- **After a timeout** a call hears what is still owed of earlier replies, and then its own. What it
captures is made of that and of nothing that had been delivered before. -/
theorem execute_after_timeout {code code' : Text} {h : Host (Session (Console σ))} {w : String}
    {disk : Disk} (late : (execute code h).1.error = some (.transport (.timeout w)))
    (runs : IsRun code' (execute code h).2 disk) :
    let between := (execute code h).2
    let owing := OrderlyChannel.ledger between.guest.transport.channel
    let outcome := Console.run (chunkFor between.guest.settings between.guest.context code')
      ⟨between.guest.transport, disk⟩
    (∃ replies gone, (OrderlyChannel.ledger h.guest.transport.channel).Advances replies gone owing) ∧
    (execute code' between).1.transcript = outcome.1.capture.transcript ∧
    ∃ replies heard taken lost,
      owing.Advances replies heard (OrderlyChannel.ledger outcome.2.guest.channel) ∧
      Terminal.Rewritten heard (taken ++ lost) ∧
      Console.Captured taken outcome.1.capture.text ∧
      Console.ListedFromText outcome.1.capture ∧
      (owing.owed = [] → heard <+: replies.flatten) ∧
      (owing.owed ≠ [] → heard ≠ [] → heard.head? = owing.owed.head?) := by
  obtain ⟨disk₁, run, failed⟩ := isRun_of_timeout late
  obtain ⟨-, after⟩ := execute_of_failure run failed
  rw [Console.transport_run, Console.transport_reset] at after
  have transport : (execute code h).2.guest.transport = (Console.reset (Console.run
      (chunkFor h.guest.settings h.guest.context code) ⟨h.guest.transport, disk₁⟩).2).guest :=
    congrArg (·.guest.transport) after
  obtain ⟨empty, gone⟩ := Console.reset_run_heard
    (chunkFor h.guest.settings h.guest.context code) ⟨h.guest.transport, disk₁⟩
  rw [← transport] at empty gone
  have listed := transcript_of_isRun runs
  rw [Console.transport_run] at listed
  have heard := @Console.run_heard σ _
    (chunkFor (execute code h).2.guest.settings (execute code h).2.guest.context code')
    ⟨(execute code h).2.guest.transport, disk⟩ empty
  exact ⟨gone, listed, heard⟩

/-! ## Over a spool -/

/-- The settings of the sessions here. -/
def spoolSettings : AssemblySettings := .default ⟨"cache".toList⟩

/-- What a line is assembled to. -/
def lineChunk (line : Text) : Chunk := chunkFor spoolSettings .initial line

/-- A line that is sent as it stands and changes nothing for the next. -/
structure SentAsIs (line : Text) : Prop where
  notMeta : MetaCommand.ofCode? line = none
  complete : (Analysis.ofCode (executedCode line) .newline).incomplete? = none
  nonempty : (lineChunk line).body ≠ []
  direct : (lineChunk line).indirect = false
  /-- It is all that is sent before the sentinel. -/
  alone : (Text.lines (Text.unlines (lineChunk line).body)).filter (· ≠ []) = [line]
  /-- The next buffer starts as this one. -/
  sameContext : contextAfter spoolSettings .initial line = .initial

theorem SentAsIs.lines {line : Text} (as : SentAsIs line) :
    (lineChunk line).submissionLines = [line, (lineChunk line).sentinel] :=
  submissionLines_of_body [line] as.nonempty as.direct as.alone

theorem SentAsIs.isRun {τ : Type} {line : Text} (as : SentAsIs line) {h : Host (Session τ)}
    (settings : h.guest.settings = spoolSettings) (context : h.guest.context = .initial) :
    IsRun line h h.disk := by
  refine (isRun_iff_of_direct h as.notMeta ?_ ?_ ?_).mpr rfl
  · rw [context]
    exact as.complete
  · rw [settings, context]
    exact as.nonempty
  · rw [settings, context]
    exact as.direct

theorem sentAsIs_first : SentAsIs "sum x".toList :=
  ⟨rfl, by decide +kernel, by decide +kernel, by decide +kernel, by decide +kernel,
    by decide +kernel⟩

theorem sentAsIs_second : SentAsIs "di 2".toList :=
  ⟨rfl, by decide +kernel, by decide +kernel, by decide +kernel, by decide +kernel,
    by decide +kernel⟩

/-- A session over a spool that prints an answer to each of two lines, with ten microseconds for
each call. -/
def overSpool (pace : List Nat) : Host (Session (Console Spool)) :=
  ⟨⟨.ofChannel ⟨["sum x\nlate\n. ".toList, "di 2\n2\n. ".toList], pace, .empty⟩ 10, spoolSettings,
    .initial, 80⟩, .empty⟩

/-- The console of the session when the first line has waited in vain. -/
def spoolWaited (pace : List Nat) : Host (Console Spool) :=
  ⟨⟨⟨["di 2\n2\n. ".toList], pace, Ledger.empty.answered "sum x\nlate\n. ".toList⟩, 10, []⟩, .empty⟩

/-- The first line times out when the first read is in vain. -/
theorem overSpool_late (pace : List Nat) :
    (execute "sum x".toList (overSpool (0 :: pace))).1.error
        = some (.transport (.timeout "ready prompt")) ∧
      (execute "sum x".toList (overSpool (0 :: pace))).2
        = ⟨⟨(Console.reset (spoolWaited pace)).guest, spoolSettings, .initial, 80⟩,
          (Console.reset (spoolWaited pace)).disk⟩ := by
  have run : IsRun "sum x".toList (overSpool (0 :: pace)) .empty := sentAsIs_first.isRun rfl rfl
  have lost : Console.turnAt "sum x".toList
      (Console.Call.ofHost ⟨(overSpool (0 :: pace)).guest.transport, .empty⟩)
        = (.lost (.timeout "ready prompt"), _) :=
    @Console.turnAt_of_silence _ _ _ _ 10
      ⟨(overSpool (0 :: pace)).guest.transport.channel.printing, .empty⟩
      ⟨(spoolWaited pace).guest.channel, .empty⟩ rfl (show 0 < 10 by decide) rfl rfl
      (show 10 ≤ 0 + max 1 10 by decide)
  -- so the first line is the last, and nothing is captured
  have ran := @Console.run_of_lost _ _ _ _ _ (lineChunk "sum x".toList) [] sentAsIs_first.lines
    ⟨(overSpool (0 :: pace)).guest.transport, .empty⟩ _ lost
  have failed : (Transport.run (lineChunk "sum x".toList)
      ⟨(overSpool (0 :: pace)).guest.transport, .empty⟩).1.failure
        = some (.timeout "ready prompt") := by
    rw [Console.transport_run, ran]
  have left : (Console.run (lineChunk "sum x".toList)
      ⟨(overSpool (0 :: pace)).guest.transport, .empty⟩).2 = spoolWaited pace := by
    rw [ran]
    rfl
  obtain ⟨error, after⟩ := execute_of_failure run failed
  have context : contextAfter (overSpool (0 :: pace)).guest.settings
      (overSpool (0 :: pace)).guest.context "sum x".toList = .initial := sentAsIs_first.sameContext
  have chunk : chunkFor (overSpool (0 :: pace)).guest.settings
      (overSpool (0 :: pace)).guest.context "sum x".toList = lineChunk "sum x".toList := rfl
  rw [Console.transport_run, Console.transport_reset, context, chunk, left] at after
  exact ⟨error, after⟩

/-- The answer to the first line has arrived when the console is reset. -/
theorem execute_after_timeout_arrived :
    let between := (execute "sum x".toList (overSpool [0, 13])).2
    let owing := OrderlyChannel.ledger between.guest.transport.channel
    let outcome := Console.run
      (chunkFor between.guest.settings between.guest.context "di 2".toList)
      ⟨between.guest.transport, between.disk⟩
    (execute "sum x".toList (overSpool [0, 13])).1.error
      = some (.transport (.timeout "ready prompt")) ∧
    IsRun "di 2".toList between between.disk ∧ owing.owed = [] ∧
    ∃ replies heard taken lost,
      owing.Advances replies heard (OrderlyChannel.ledger outcome.2.guest.channel) ∧
      Terminal.Rewritten heard (taken ++ lost) ∧
      Console.Captured taken outcome.1.capture.text ∧ heard <+: replies.flatten := by
  obtain ⟨late, after⟩ := overSpool_late [13]
  have runs := sentAsIs_second.isRun (congrArg (·.guest.settings) after)
    (congrArg (·.guest.context) after)
  -- the reset reads the whole answer away
  have drained : Console.drain (⟨(spoolWaited [13]).guest.channel, .empty⟩ : Host Spool)
      = ⟨⟨["di 2\n2\n. ".toList], [], (spoolWaited []).guest.channel.ledger.delivering 13⟩, .empty⟩ :=
    (Console.drain_of_piece rfl).trans (Console.drain_of_silence rfl)
  have settled : (OrderlyChannel.ledger
      (execute "sum x".toList (overSpool [0, 13])).2.guest.transport.channel).owed = [] := by
    rw [after]
    exact congrArg (fun h : Host Spool => (OrderlyChannel.ledger h.guest).owed) drained
  obtain ⟨-, -, replies, heard, taken, lost, advances, rewritten, captured, -, own, -⟩ :=
    execute_after_timeout late runs
  exact ⟨late, runs, settled, replies, heard, taken, lost, advances, rewritten, captured,
    own settled⟩

/-- The second line is answered with the answer to the first, and the sentinel with its answer. -/
theorem run_second_shifted :
    (Console.run (lineChunk "di 2".toList)
      (spoolWaited [13, 0, 9, 0])).1.capture.transcript.map (·.raw)
      = ["sum x\nlate\n".toList, "di 2\n2\n".toList] := by
  -- what matters of the call behind the first line
  obtain ⟨c, first, empty, time, paced, next, listed⟩ : ∃ c : Console.Call Spool,
      Console.turnAt "di 2".toList (Console.Call.ofHost (spoolWaited [13, 0, 9, 0]))
        = (.prompted "sum x\nlate\n".toList, c) ∧ c.buffer = [] ∧ 0 < c.left ∧
      c.host.guest.pace = [9, 0] ∧
      c.host.guest.printing.ledger.owed.take 9 = "di 2\n2\n. ".toList ∧
      c.capture.transcript.map (·.raw) = ["sum x\nlate\n".toList] := by
    refine ⟨_, Console.turnAt_of_pace rfl (by decide) rfl rfl (by decide) (by decide) (by decide) _,
      ?_, ?_, ?_, ?_, ?_⟩ <;> decide
  have second := Console.turnAt_of_pace empty time paced next (by decide)
    (show _ = "di 2\n2\n".toList ++ ". ".toList by decide) (by decide)
    (lineChunk "di 2".toList).sentinel
  obtain ⟨code, ran⟩ := Console.run_of_prompted sentAsIs_second.lines first (by decide) second
  rw [ran]
  show (c.capture.transcript ++ [_]).map TranscriptEntry.raw = _
  rw [List.map_append, listed]
  rfl

/-- The answer to the first line arrives after the reset, so that all answers are shifted. -/
theorem execute_after_timeout_shifted :
    let h := overSpool [0, 0, 13, 0, 9, 0]
    let between := (execute "sum x".toList h).2
    (execute "sum x".toList h).1.error = some (.transport (.timeout "ready prompt")) ∧
    (execute "di 2".toList between).1.transcript.map (·.raw)
      = ["sum x\nlate\n".toList, "di 2\n2\n".toList] := by
  intro h between
  obtain ⟨late, after⟩ := overSpool_late [0, 13, 0, 9, 0]
  refine ⟨late, ?_⟩
  -- the reset finds nothing to read away
  have reset : Console.reset (spoolWaited [0, 13, 0, 9, 0]) = spoolWaited [13, 0, 9, 0] := by
    unfold Console.reset
    rw [@Console.drain_of_silence Spool _ 0 _ ⟨(spoolWaited [13, 0, 9, 0]).guest.channel, .empty⟩ rfl]
    rfl
  rw [reset] at after
  have begins : between = ⟨⟨(spoolWaited [13, 0, 9, 0]).guest, spoolSettings, .initial, 80⟩,
    (spoolWaited [13, 0, 9, 0]).disk⟩ := after
  have listed := transcript_of_isRun (@SentAsIs.isRun _ _ sentAsIs_second
    (⟨⟨(spoolWaited [13, 0, 9, 0]).guest, spoolSettings, .initial, 80⟩,
      (spoolWaited [13, 0, 9, 0]).disk⟩ : Host (Session (Console Spool))) rfl rfl)
  rw [begins, listed, Console.transport_run]
  exact run_second_shifted

end Session

end DoRunner
