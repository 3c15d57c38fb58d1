import Mathlib.Tactic.IntervalCases
import DoRunner.Proofs.Session.ConsoleLaw
import DoRunner.Proofs.Session.HelpShortcut
import DoRunner.Proofs.Transport.AllSubmitted

/-!
# What a session that started has done

Starting a session executes three lines, and looks at two things that come of it: whether the
transport failed, and the return code. While lines end statements that is nearly enough. The chunk of
the three lines was run, and nothing can be wrong with its result but that echoes do not fit; and the
transport has submitted all of it, if that can be seen (`start_ok`). Under an explicit terminator it
is not enough. The lines do not end with it, so they are refused as incomplete, with the return code
zero, and a session starts that has sent nothing.
-/

namespace DoRunner

/-! ## The lines -/

theorem Text.mem_digits_of_mem_ofNat {n : Nat} {c : Char} (h : c ∈ ofNat n) :
    c ∈ "0123456789".toList := by
  have digit : c.isDigit = true := Nat.isDigit_of_mem_toDigits (by decide) (by decide) h
  have bounds : 48 ≤ c.toNat ∧ c.toNat ≤ 57 := by
    simpa [Char.isDigit, UInt32.le_iff_toNat_le] using digit
  rw [← Char.ofNat_toNat c]
  obtain ⟨low, high⟩ := bounds
  generalize c.toNat = code at low high ⊢
  interval_cases code <;> decide

namespace Session

/-- The lines that set a session up. -/
def initLines (linesize : Nat) : List Text :=
  ["set more off".toList, "set linesize ".toList ++ Text.ofNat linesize,
    "global ".toList ++ graphCounter ++ " = 0".toList]

theorem initCode_eq (linesize : Nat) : initCode linesize = Text.unlines (initLines linesize) := by
  have first : "set more off\nset linesize ".toList
      = "set more off".toList ++ '\n' :: "set linesize ".toList := by decide
  have last : "\nglobal ".toList = '\n' :: "global ".toList := by decide
  unfold initCode initLines
  simp only [first, last, Text.unlines, List.append_assoc, List.cons_append]

/-- A line that goes through everything as it stands. -/
structure InitLine (line : Text) : Prop where
  bare : Text.Bare line
  ordinary : Line.Ordinary line
  trimmed : Text.trim line = line
  nonempty : line ≠ []

theorem InitLine.oneLine {line : Text} (h : InitLine line) : '\n' ∉ line :=
  fun m => (h.bare _ m).1 rfl

theorem initLine_of_mem {linesize : Nat} {line : Text} (m : line ∈ initLines linesize) :
    InitLine line := by
  simp only [initLines, List.mem_cons, List.not_mem_nil, or_false] at m
  rcases m with rfl | rfl | rfl
  · exact ⟨by decide, ⟨rfl, rfl, rfl, rfl⟩, by decide, by decide⟩
  · have digits : Text.Bare "0123456789".toList := by decide
    have solid : Text.solid "0123456789".toList = true := by decide
    refine ⟨?_, ⟨rfl, rfl, rfl, rfl⟩, ?_, by simp⟩
    · have word : Text.Bare "set linesize ".toList := by decide
      intro c m
      rcases List.mem_append.mp m with m | m
      · exact word c m
      · exact digits c (Text.mem_digits_of_mem_ofNat m)
    · refine Text.trim_eq_self (fun c first => ?_) fun c last => ?_
      · obtain rfl : 's' = c := Option.some.inj first
        decide
      · have written : Text.ofNat linesize ≠ [] := Nat.toDigits_ne_nil
        rw [List.getLast?_append_of_ne_nil _ written] at last
        have ink := List.all_eq_true.mp solid c
          (Text.mem_digits_of_mem_ofNat (List.mem_of_getLast? last))
        simpa using ink
  · exact ⟨by decide, ⟨rfl, rfl, rfl, rfl⟩, by decide, by decide⟩

theorem notShortcut_initCode (linesize : Nat) :
    MetaCommand.ofCode? (initCode linesize) = none ∧
      executedCode (initCode linesize) = initCode linesize := by
  obtain ⟨notMeta, notHelp⟩ : MetaCommand.ofCode? (initCode linesize) = none ∧
      helpCommand? (initCode linesize) = none :=
    notShortcut_of_head (c := 's') (by decide) (by decide) (by decide)
  refine ⟨notMeta, ?_⟩
  rw [executedCode, notHelp, Option.getD_none]

theorem notMem_return_initCode (linesize : Nat) : '\r' ∉ initCode linesize := by
  have number : '\r' ∉ Text.ofNat linesize :=
    fun m => absurd (Text.mem_digits_of_mem_ofNat m) (by decide)
  unfold initCode
  simp only [List.mem_append, not_or]
  exact ⟨⟨⟨⟨by decide, number⟩, by decide⟩, by decide⟩, by decide⟩

theorem initLines_ne_nil (linesize : Nat) : initLines linesize ≠ [] := List.cons_ne_nil _ _

theorem lines_initCode (linesize : Nat) : Text.lines (initCode linesize) = initLines linesize := by
  rw [initCode_eq]
  exact Text.lines_unlines (initLines_ne_nil linesize) fun line m => (initLine_of_mem m).oneLine

theorem filter_initLines (linesize : Nat) :
    (initLines linesize).filter (· ≠ []) = initLines linesize :=
  List.filter_eq_self.mpr fun line m => by simpa using (initLine_of_mem m).nonempty

/-- While lines end statements, the lines are complete, and they are the statements. -/
theorem ofCode_initCode (linesize : Nat) :
    (Analysis.ofCode (initCode linesize) .newline).incomplete? = none ∧
      Text.trimmedLines (Analysis.ofCode (initCode linesize) .newline).cleanText
        = initLines linesize := by
  have plain := notMem_return_initCode linesize
  rw [initCode_eq] at plain ⊢
  obtain ⟨complete, -, clean⟩ := Analysis.ofCode_bareLines (initLines_ne_nil linesize) plain
    fun line m => ⟨(initLine_of_mem m).bare, (initLine_of_mem m).ordinary⟩
  refine ⟨complete, ?_⟩
  have trimmed : (initLines linesize).map Text.trim = initLines linesize :=
    (List.map_congr_left fun line m => (initLine_of_mem m).trimmed).trans (List.map_id _)
  rw [clean, ← initCode_eq, Text.trimmedLines, lines_initCode, trimmed, filter_initLines]

/-- Under an explicit terminator that they do not hold, the lines are refused. -/
theorem incomplete_initCode (linesize : Nat) {terminator : Char}
    (missing : terminator ∉ initCode linesize) :
    (Analysis.ofCode (initCode linesize) (.explicit terminator)).incomplete? ≠ none := by
  refine Analysis.incomplete_of_notMem (notMem_return_initCode linesize) ?_ rfl missing
  rw [lines_initCode]
  intro line m
  rw [(initLine_of_mem m).ordinary.noDirective]
  simp

/-! ## The chunk -/

section Chunk

variable {settings : AssemblySettings} {context : SessionContext} (linesize : Nat)
  (newline : context.mode = .newline)

include newline

theorem body_initCode : (chunkFor settings context (initCode linesize)).body
    = (initLines linesize).flatMap settings.linesOf := by
  rw [chunkFor, (notShortcut_initCode linesize).2, newline, Analysis.body_assemble,
    (ofCode_initCode linesize).2]

/-- Each statement is a line of the body. -/
theorem sublist_body_initCode :
    (initLines linesize).Sublist (chunkFor settings context (initCode linesize)).body := by
  rw [body_initCode linesize newline]
  generalize initLines linesize = lines
  induction lines with
  | nil => exact List.nil_sublist _
  | cons line lines ih =>
    have first : [line].Sublist (settings.linesOf line) := by
      rw [List.singleton_sublist, AssemblySettings.linesOf]
      split <;> exact List.mem_cons_self
    exact first.append ih

theorem body_initCode_ne_nil : (chunkFor settings context (initCode linesize)).body ≠ [] := by
  intro empty
  have within := @sublist_body_initCode settings context linesize newline
  rw [empty] at within
  exact absurd (List.sublist_nil.mp within) (List.cons_ne_nil _ _)

/-- Where the lines are not included from the script, they are sent themselves. -/
theorem sublist_submissionLines_initCode
    (direct : (chunkFor settings context (initCode linesize)).indirect = false) :
    (initLines linesize).Sublist
      (chunkFor settings context (initCode linesize)).submissionLines := by
  rw [submissionLines_of_body _ (body_initCode_ne_nil linesize newline) direct rfl,
    ← filter_initLines]
  refine (List.Sublist.filter _ ?_).trans (List.sublist_append_left _ _)
  exact Text.sublist_lines_unlines (fun line m => (initLine_of_mem m).oneLine)
    (sublist_body_initCode linesize newline)

end Chunk

/-! ## Starting -/

variable {τ : Type} [Transport τ]

theorem exists_disk_of_start {h h' : Host (Session τ)} (started : start h = (.ok (), h')) :
    ∃ disk, withCacheDirectory h.guest.settings.cache h.disk = .ok disk := by
  unfold start at started
  cases made : withCacheDirectory h.guest.settings.cache h.disk with
  | error e =>
    rw [made] at started
    exact absurd (Prod.ext_iff.mp started).1 (by simp)
  | ok disk => exact ⟨disk, rfl⟩

/-- A session starts just where neither the transport nor the return code reports anything. -/
theorem start_eq_ok {h h' after : Host (Session τ)} {disk : Disk} {result : ExecutionResult}
    (made : withCacheDirectory h.guest.settings.cache h.disk = .ok disk)
    (executed : execute (initCode h.guest.linesize) ⟨h.guest, disk⟩ = (result, after)) :
    start h = (.ok (), h') ↔
      (∀ e, result.error ≠ some (.transport e)) ∧ result.returnCode = 0 ∧
      h' = ⟨{ after.guest with context := { after.guest.context with plotCounter := 0 } },
        after.disk⟩ := by
  unfold start
  rw [made]
  dsimp only
  rw [executed]
  constructor
  · intro started
    split at started
    · exact absurd (Prod.ext_iff.mp started).1 (by simp)
    · rename_i noFailure
      split at started
      · exact absurd (Prod.ext_iff.mp started).1 (by simp)
      · rename_i noCode
        exact ⟨noFailure, not_not.mp noCode, (Prod.ext_iff.mp started).2.symm⟩
  · rintro ⟨noFailure, noCode, rfl⟩
    split
    · rename_i e failed
      exact absurd failed (noFailure e)
    · rw [if_neg (not_not.mpr noCode)]

/-- A chunk that is run without a failure of the transport is its only call. -/
theorem runChunk_of_noFailure {chunk : Chunk} {h : Host (Session (Observed τ))}
    (noFailure : ∀ e, (runChunk chunk h).1.error ≠ some (.transport e)) :
    let outcome := (Transport.run chunk (⟨h.guest.transport.transport, h.disk⟩ : Host τ)).1
    outcome.failure = none ∧ (runChunk chunk h).1 = h.guest.resultOf chunk outcome ∧
      callsOf (runChunk chunk h).2 = callsOf h ++ [.run chunk h.disk] := by
  intro outcome
  have result : (runChunk chunk h).1 = h.guest.resultOf chunk outcome := rfl
  have succeeds : outcome.failure = none := by
    cases failed : outcome.failure with
    | none => rfl
    | some e =>
      refine absurd ?_ (noFailure e)
      rw [result, resultOf]
      dsimp only
      rw [failed]
  refine ⟨succeeds, result, ?_⟩
  have noReset : (Transport.run chunk (⟨h.guest.transport, h.disk⟩ : Host (Observed τ))).1.failure
      = none := succeeds
  unfold runChunk
  dsimp only
  rw [noReset]
  rfl

section Executed

variable {h after : Host (Session (Observed τ))} {result : ExecutionResult}
  (executed : execute (initCode h.guest.linesize) h = (result, after))

include executed

/-- **While lines end statements,** the chunk of the lines is the only call, and its result is good
but for a complaint about echoes. -/
theorem executed_newline (newline : h.guest.context.mode = .newline)
    (noFailure : ∀ e, result.error ≠ some (.transport e)) (noCode : result.returnCode = 0) :
    let chunk := chunkFor h.guest.settings h.guest.context (initCode h.guest.linesize)
    (∃ disk, callsOf after = callsOf h ++ [.run chunk disk] ∧
      (chunk.indirect = true →
        disk.read h.guest.settings.cache.includeScript = some (Utf8.encode chunk.scriptText))) ∧
    (Transport.Thorough τ → (∀ entry ∈ result.transcript, entry.Smooth) →
      result.transcript.map (·.sent) = chunk.submissionLines) ∧
    (result.isSuccess = true ↔ ∀ e, result.error ≠ some (.reconcile e)) := by
  intro chunk
  obtain ⟨notMeta, asIs⟩ := notShortcut_initCode h.guest.linesize
  have complete : (Analysis.ofCode (executedCode (initCode h.guest.linesize))
      h.guest.context.mode).incomplete? = none := by
    rw [asIs, newline]
    exact (ofCode_initCode _).1
  have accepted : ∀ reason, result.error ≠ some (.incomplete reason) := by
    intro reason refused
    have found := (error_execute (h := h) notMeta reason).mp (by rw [executed]; exact refused)
    exact absurd (complete.symm.trans found) (by simp)
  have ends := execute_ends (initCode h.guest.linesize) h
  rw [executed] at ends
  dsimp only at ends
  cases ends with
  | handedBack isMeta => exact absurd (isMeta.symm.trans notMeta) (by simp)
  | incomplete _ found => exact absurd (found.symm.trans complete) (by simp)
  | empty _ _ empty => exact absurd empty (body_initCode_ne_nil _ newline)
  | unwritten => exact absurd rfl (noFailure _)
  | @run disk run =>
    obtain ⟨succeeds, result, called⟩ := runChunk_of_noFailure noFailure
    refine ⟨⟨disk, called, read_of_writeScript run.written⟩, ?_, ?_⟩
    · intro thorough smooth
      rw [result] at noCode smooth ⊢
      refine thorough _ _ succeeds ?_ smooth
      rw [resultOf] at noCode
      dsimp only at noCode
      rwa [succeeds] at noCode
    · rw [ExecutionResult.isSuccess, noCode, Bool.and_eq_true, Option.isNone_iff_eq_none]
      constructor
      · rintro ⟨-, noError⟩ e
        rw [noError]
        simp
      · intro fits
        refine ⟨rfl, Option.eq_none_iff_forall_ne_some.mpr fun error found => ?_⟩
        cases error with
        | incomplete reason => exact accepted reason found
        | transport e => exact noFailure e found
        | reconcile e => exact fits e found

/-- **Under an explicit terminator,** the lines are refused without any effect. -/
theorem executed_explicit {terminator : Char} (explicit : h.guest.context.mode = .explicit terminator)
    (missing : terminator ∉ initCode h.guest.linesize) :
    after = h ∧ ∃ reason, result.error = some (.incomplete reason) := by
  obtain ⟨notMeta, asIs⟩ := notShortcut_initCode h.guest.linesize
  have incomplete : (Analysis.ofCode (executedCode (initCode h.guest.linesize))
      h.guest.context.mode).incomplete? ≠ none := by
    rw [asIs, explicit]
    exact incomplete_initCode _ missing
  have unchanged := execute_of_incomplete incomplete
  obtain ⟨reason, found⟩ := Option.ne_none_iff_exists'.mp incomplete
  have refused := (error_execute notMeta reason).mpr found
  rw [executed] at unchanged refused
  exact ⟨unchanged, reason, refused⟩

end Executed

/-- **What a session that started has done.** The return code was zero, and graphs are counted from
zero. While lines end statements, the transport was given the chunk of the three lines, once: they
are its statements, and they are sent themselves or are in the script that is included. A transport
of which that can be seen has submitted all lines of the chunk, and all is well but for a complaint
about echoes. Under an explicit terminator that the lines do not hold, the transport was not called,
and the lines were refused. -/
theorem start_ok {h h' : Host (Session (Observed τ))} (started : start h = (.ok (), h')) :
    let s := h.guest
    let chunk := chunkFor s.settings s.context (initCode s.linesize)
    ∃ disk result, withCacheDirectory s.settings.cache h.disk = .ok disk ∧
      (execute (initCode s.linesize) ⟨s, disk⟩).1 = result ∧
      result.returnCode = 0 ∧ h'.guest.context.plotCounter = 0 ∧
      (s.context.mode = .newline →
        chunk.body = (initLines s.linesize).flatMap s.settings.linesOf ∧
        (chunk.indirect = false → (initLines s.linesize).Sublist chunk.submissionLines) ∧
        (∃ disk', callsOf h' = callsOf h ++ [.run chunk disk'] ∧
          (chunk.indirect = true →
            disk'.read s.settings.cache.includeScript = some (Utf8.encode chunk.scriptText))) ∧
        (Transport.Thorough τ → (∀ entry ∈ result.transcript, entry.Smooth) →
          result.transcript.map (·.sent) = chunk.submissionLines) ∧
        (result.isSuccess = true ↔ ∀ e, result.error ≠ some (.reconcile e))) ∧
      (∀ terminator, s.context.mode = .explicit terminator → terminator ∉ initCode s.linesize →
        callsOf h' = callsOf h ∧ ∃ reason, result.error = some (.incomplete reason)) := by
  intro s chunk
  obtain ⟨disk, made⟩ := exists_disk_of_start started
  obtain ⟨result, after, executed⟩ :
      ∃ result after, execute (initCode s.linesize) ⟨s, disk⟩ = (result, after) := ⟨_, _, rfl⟩
  obtain ⟨noFailure, noCode, rfl⟩ := (start_eq_ok made executed).mp started
  refine ⟨disk, result, made, congrArg Prod.fst executed, noCode, rfl, fun newline => ?_,
    fun terminator explicit missing => ?_⟩
  · have ran := @executed_newline τ _ ⟨s, disk⟩ after result executed newline noFailure noCode
    exact ⟨body_initCode _ newline, sublist_submissionLines_initCode _ newline, ran⟩
  · obtain ⟨unchanged, refused⟩ :=
      @executed_explicit τ _ ⟨s, disk⟩ after result executed terminator explicit missing
    refine ⟨?_, refused⟩
    rw [unchanged]
    rfl

/-- A transport whose program echoes every line and prints nothing else. -/
structure Echoing where

instance : Transport Echoing where
  run chunk h :=
    (⟨⟨Text.ended (chunk.submissionLines.map Echo.prompted), 0,
      chunk.submissionLines.map fun line => ⟨line, Echo.prompted line ++ ['\n']⟩⟩, none⟩, h)
  reset h := h
  shutdown h := .ok () h

theorem thorough_echoing : Transport.Thorough Echoing := by
  intro chunk h outcome _ _ _
  show (chunk.submissionLines.map _).map TranscriptEntry.sent = _
  rw [List.map_map]
  exact List.map_id _

/-- Where every line is echoed, the lines are sent and all is well. -/
theorem start_ok_echoing :
    let h : Host (Session (Observed Echoing)) :=
      ⟨⟨⟨⟨⟩, []⟩, .default ⟨"c".toList⟩, .initial, 80⟩, .empty⟩
    let chunk := chunkFor h.guest.settings h.guest.context (initCode 80)
    (start h).1 = .ok () ∧ (initLines 80).Sublist chunk.submissionLines ∧
    ∃ disk disk', callsOf (start h).2 = [.run chunk disk'] ∧
      let result := (execute (initCode 80) ⟨h.guest, disk⟩).1
      result.transcript.map (·.sent) = chunk.submissionLines ∧ result.isSuccess = true := by
  intro h chunk
  let disk := Disk.empty.put ["c".toList, "work".toList] (some .directory)
  have runs : (start h).1 = .ok () ∧
      withCacheDirectory h.guest.settings.cache h.disk = .ok disk ∧ chunk.indirect = false ∧
      (execute (initCode 80) ⟨h.guest, disk⟩).1.error = none ∧
      ∀ entry ∈ (execute (initCode 80) ⟨h.guest, disk⟩).1.transcript,
        ReturnCode.first? entry.raw ≠ some 0 ∧ Console.atPager entry.raw = false := by
    decide +kernel
  obtain ⟨ok, here, direct, noError, smooth⟩ := runs
  obtain ⟨disk', result, made, rfl, -, -, newline, -⟩ :=
    @start_ok _ _ h (start h).2 (Prod.ext ok rfl)
  obtain rfl : disk = disk' := Except.ok.inj (here.symm.trans made)
  obtain ⟨-, sent, ⟨disk', called, -⟩, all, fits⟩ := newline rfl
  refine ⟨ok, sent direct, disk, disk', called, ?_, ?_⟩
  · exact all thorough_echoing fun entry m => ⟨(smooth entry m).1, (smooth entry m).2⟩
  · refine fits.mpr fun e complaint => ?_
    exact absurd (noError.symm.trans complaint) (by simp)

/-- A transport whose program prints nothing at all. -/
structure Mute where

instance : Transport Mute where
  run _ h := (⟨.empty, none⟩, h)
  reset h := h
  shutdown h := .ok () h

/-- Sessions that started without being set up. Under an explicit terminator a session starts over a
program that has gone. It starts although no line was echoed, and the result says so. And it starts
over a console that prints the return code zero for the first line, so that the others are not
sent. -/
theorem start_ok_unprepared :
    let gone := overGone .semicolon
    let mute : Host (Session Mute) := ⟨⟨⟨⟩, .default ⟨"c".toList⟩, .initial, 80⟩, .empty⟩
    let console := overTeletype "c".toList [["r(0);".toList]]
    ((start gone).1 = .ok () ∧
      (execute (initCode 80) gone).1.error = some (.incomplete .missingTerminator)) ∧
    ((start mute).1 = .ok () ∧ (execute (initCode 80) mute).1.error
      = some (.reconcile (.echoNotFound "set more off".toList))) ∧
    (start console).1 = .ok () ∧
      (start console).2.guest.transport.channel.calls = [.sendLine "set more off".toList] := by
  intro gone mute h
  refine ⟨by decide +kernel, by decide +kernel, ?_⟩
  let disk := Disk.empty.put ["c".toList, "work".toList] (some .directory)
  have made : withCacheDirectory h.guest.settings.cache h.disk = .ok disk := by decide +kernel
  obtain ⟨chunk, s, prepared, body, direct⟩ := h.guest.exists_prepared (initCode 80)
    (initLines 80) (by decide +kernel)
  obtain ⟨scan, context, assembled, -⟩ := prepare_eq_ok prepared
  let x : Exchange := ⟨"set more off".toList, ["r(0);".toList], by decide, by decide⟩
  let xs : List Exchange := [x, .silent "set linesize 80".toList (by decide),
    .silent "global stata_kernel_graph_counter = 0".toList (by decide)]
  let z : Exchange := .silent chunk.sentinel (by rw [assembled]; exact notMem_sentinel.1)
  -- the return code ends the chunk behind the first line
  have first : Exchange.upToFailure (xs ++ [z]) = [x] := rfl
  obtain ⟨left, answers⟩ := Teletype.answers [x] [] disk h.guest.transport.timeout (by decide)
  rw [← first] at answers
  have plain : ∀ y ∈ xs, ∀ l ∈ y.printed, '\r' ∉ l ∧ '\x1b' ∉ l := by decide
  have executed := execute_captured (h := ⟨h.guest, disk⟩) (notShortcut_initCode 80).1 (by decide)
    prepared direct (by rw [body]; exact initLines_ne_nil 80) rfl (by rw [body]; decide) plain rfl
    rfl answers
  have noFailure : ∀ e, (s.resultOf chunk ⟨{ Console.logged .empty (Exchange.upToFailure (xs ++ [z]))
      with returnCode := 0 }, none⟩).error ≠ some (.transport e) := by
    intro e error
    obtain ⟨_, -, other⟩ := Option.map_eq_some_iff.mp error
    exact absurd other (by simp)
  rw [(start_eq_ok made executed).mpr ⟨noFailure, rfl, rfl⟩]
  exact ⟨rfl, rfl⟩

end Session

end DoRunner
