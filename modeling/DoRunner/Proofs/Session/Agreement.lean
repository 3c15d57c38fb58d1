import DoRunner.Proofs.Chunk.Framing
import DoRunner.Proofs.Echo.Walk
import DoRunner.Proofs.Session.Execution
import DoRunner.Proofs.Transport.ConsoleReplies
import DoRunner.Proofs.Transport.LogReplies

/-!
# Both transports come to the same

The same program may be reached over a console or as an application with a log. Whatever it prints,
the result of a buffer is the same: return code, output, graphs and error. This holds for output
that nobody would wish for, too, such as lines that look like echoes.

The two captures are not the same text. The console has lost carriage returns at the ends of echoes,
and the log has the echo of the sentinel after a failure. The first is made up for when the captures
are made plain (`plain_entries`, `plain_shown`), as long as no line ends in two carriage returns,
of which the console loses one more than the log. The second makes no difference to what is
recovered (`Reconcile.reconcile_append_sentinel`).
-/

namespace DoRunner.Session

/-! ## The captures -/

theorem chomp_prompted (line : Text) :
    Terminal.chomp (Echo.prompted line) = Echo.prompted (Terminal.chomp line) := by
  by_cases hcr : line.getLast? = some '\r'
  · obtain ⟨front, rfl⟩ := List.getLast?_eq_some_iff.mp hcr
    rw [Terminal.chomp_append_return]
    exact Terminal.chomp_append_return (Echo.prompted front)
  · rw [Terminal.chomp_of_getLast hcr, Terminal.chomp_of_getLast]
    cases line with
    | nil => decide
    | cons c line =>
      rw [Echo.prompted, List.getLast?_cons_cons, List.getLast?_cons_cons]
      exact hcr

/-- What an exchange is in plain text. -/
def plainEntry (x : Exchange) : Text :=
  Terminal.strip (Echo.prompted (Terminal.chomp x.line)) ++ '\n' :: Text.ended x.printed

theorem legible_printed {x : Exchange} (plain : x.IsPlain) :
    ∀ l ∈ x.printed, Terminal.Legible l :=
  fun l m => Terminal.legible_of_notMem (x.oneLineEach l m) (plain l m).1 (plain l m).2

/-- A prompted line with lines printed after it, in plain text. -/
theorem plain_prompted {line : Text} (h : '\n' ∉ line) {printed : List Text}
    (legible : ∀ l ∈ printed, Terminal.Legible l) (t : Text) :
    Terminal.plain (Echo.prompted line ++ '\n' :: (Text.ended printed ++ t)) =
      Terminal.strip (Echo.prompted (Terminal.chomp line)) ++ '\n' :: Text.ended printed
        ++ Terminal.plain t := by
  rw [Terminal.plain_append_lf, Terminal.plain_line (Echo.notMem_prompted (by decide) h),
    chomp_prompted, Terminal.plain_ended_append legible, List.append_assoc, List.append_assoc]
  rfl

/-- The log of exchanges in plain text. -/
theorem plain_entries {ys : List Exchange} (plain : ∀ x ∈ ys, x.IsPlain) (t : Text) :
    Terminal.plain (ys.flatMap Automation.entry ++ t)
      = ys.flatMap plainEntry ++ Terminal.plain t := by
  induction ys with
  | nil => rfl
  | cons x ys ih =>
    have cut : (x :: ys).flatMap Automation.entry ++ t = Echo.prompted x.line ++
        '\n' :: (Text.ended x.printed ++ (ys.flatMap Automation.entry ++ t)) := by
      rw [List.flatMap_cons, Automation.entry, Exchange.answer]
      simp [Echo.prompted]
    rw [cut, plain_prompted x.oneLine (legible_printed (plain x List.mem_cons_self)),
      ih (fun y m => plain y (List.mem_cons_of_mem _ m)), List.flatMap_cons, ← plainEntry,
      List.append_assoc]

/-- What a console captures of exchanges, in plain text. -/
theorem plain_shown {ys : List Exchange} (plain : ∀ x ∈ ys, x.IsPlain)
    (once : ∀ x ∈ ys, Text.endsWith "\r\r".toList x.line = false) (t : Text) :
    Terminal.plain (Text.ended (ys.flatMap Console.shown) ++ t)
      = ys.flatMap plainEntry ++ Terminal.plain t := by
  induction ys with
  | nil => rfl
  | cons x ys ih =>
    have oneLine : '\n' ∉ Terminal.chomp x.line :=
      fun m => x.oneLine ((Terminal.chomp_isPrefix x.line).subset m)
    have cut : Text.ended ((x :: ys).flatMap Console.shown) ++ t
        = Echo.prompted (Terminal.chomp x.line) ++
          '\n' :: (Text.ended x.printed ++ (Text.ended (ys.flatMap Console.shown) ++ t)) := by
      rw [List.flatMap_cons, Text.ended_append, Console.shown, Text.ended_cons]
      simp
    rw [cut, plain_prompted oneLine (legible_printed (plain x List.mem_cons_self)),
      Terminal.chomp_chomp (once x List.mem_cons_self),
      ih (fun y m => plain y (List.mem_cons_of_mem _ m))
        (fun y m => once y (List.mem_cons_of_mem _ m)), List.flatMap_cons, ← plainEntry,
      List.append_assoc]

theorem plainEntries_end {ys : List Exchange} (h : ys ≠ []) :
    ∃ t, ys.flatMap plainEntry = t ++ ['\n'] := by
  obtain ⟨front, x, hys⟩ := (List.eq_nil_or_concat ys).resolve_left h
  rw [List.concat_eq_append] at hys
  have last : ∃ t, plainEntry x = t ++ ['\n'] := by
    rcases List.eq_nil_or_concat x.printed with hp | ⟨lines, l, hp⟩
    · exact ⟨_, by rw [plainEntry, hp]; rfl⟩
    · refine ⟨Terminal.strip (Echo.prompted (Terminal.chomp x.line)) ++
        '\n' :: (Text.ended lines ++ l), ?_⟩
      rw [plainEntry, hp, List.concat_eq_append, Text.ended_append]
      simp [Text.ended]
  obtain ⟨t, ht⟩ := last
  refine ⟨front.flatMap plainEntry ++ t, ?_⟩
  rw [hys, List.flatMap_append, List.flatMap_singleton, ht, List.append_assoc]

/-- The lines of a text that ends in a line feed. -/
theorem joinWrapped_ends (t : Text) : Echo.joinWrapped (t ++ ['\n']) = Echo.joinWrapped t ++ [[]] := by
  have fresh : ∀ line, (Text.lines []).head? = some line → ¬ Echo.Continues line := by
    intro line h
    rw [← Option.some.inj h]
    exact Echo.not_continues_of_echoContent? rfl
  exact Echo.joinWrapped_append_lf fresh t

/-- The lines of such a text with one echo behind it. -/
theorem joinWrapped_closed (t : Text) {line : Text} (oneLine : '\n' ∉ line) :
    Echo.joinWrapped (t ++ '\n' :: (Echo.prompted line ++ ['\n']))
      = Echo.joinWrapped t ++ [Echo.prompted line, []] := by
  have lines : Text.lines (Echo.prompted line) = [Echo.prompted line] :=
    Text.lines_of_notMem (Echo.notMem_prompted (by decide) oneLine)
  have both : Text.lines (Echo.prompted line ++ ['\n']) = [Echo.prompted line, []] := by
    rw [Text.lines_append_lf, lines]
    rfl
  have fresh : ∀ l ∈ Text.lines (Echo.prompted line), ¬ Echo.Continues l := by
    intro l m
    rw [lines] at m
    rw [List.mem_singleton.mp m]
    exact Echo.not_continues_prompted line
  rw [Echo.joinWrapped_append_lf, joinWrapped_ends, Echo.joinWrapped_of_fresh fresh, lines]
  · rfl
  · intro l h
    rw [both] at h
    rw [← Option.some.inj h]
    exact Echo.not_continues_prompted line

/-- What is recovered depends on the plain text only. -/
theorem reconcile_congr {raw raw' : Text} (h : Terminal.plain raw = Terminal.plain raw')
    (expected : List ExpectedLine) (sentinel : Text) (code : Int) (cache : CachePaths) :
    reconcile raw expected sentinel code cache = reconcile raw' expected sentinel code cache := by
  unfold reconcile
  rw [h]

section Captures

variable {xs ys : List Exchange} {z : Exchange} {expected : List ExpectedLine} {cache : CachePaths}
  {code : Int}

theorem text_entries (xs : List Exchange) :
    (Automation.logged .empty xs).text = xs.flatMap Automation.entry := rfl

/-- The same exchanges come to the same. -/
theorem reconcile_same (plain : ∀ y ∈ ys, y.IsPlain)
    (once : ∀ y ∈ ys, Text.endsWith "\r\r".toList y.line = false) (sentinel : Text) :
    reconcile (Console.logged .empty ys).text expected sentinel code cache
      = reconcile (Automation.logged .empty ys).text expected sentinel code cache := by
  apply reconcile_congr
  have console := plain_shown plain once []
  have application := plain_entries plain []
  rw [Terminal.plain_nil, List.append_nil, List.append_nil] at console application
  rw [Console.text_logged, text_entries, console, application]

/-- After a failure, the sentinel in the log makes no difference. -/
theorem reconcile_closed (plain : ∀ y ∈ ys, y.IsPlain)
    (once : ∀ y ∈ ys, Text.endsWith "\r\r".toList y.line = false) (started : ys ≠ [])
    (failed : code ≠ 0) (quiet : z.printed = []) (legible : Terminal.Legible z.line)
    (trimmed : Text.trim z.line = z.line) :
    let r := reconcile (Console.logged .empty ys).text expected z.line code cache
    let r' := reconcile (Automation.logged .empty (ys ++ [z])).text expected z.line code cache
    r.output = r'.output ∧ r.artifacts = r'.artifacts ∧ r.error = r'.error := by
  obtain ⟨t, ends⟩ := plainEntries_end started
  have raw : Terminal.plain (Console.logged .empty ys).text = t ++ ['\n'] := by
    have console := plain_shown plain once []
    rw [Terminal.plain_nil, List.append_nil, List.append_nil] at console
    rw [Console.text_logged, console, ends]
  have closed : Terminal.plain (Automation.logged .empty (ys ++ [z])).text
      = t ++ '\n' :: (Echo.prompted z.line ++ ['\n']) := by
    have last : [z].flatMap Automation.entry = Echo.prompted z.line ++ '\n' :: [] := by
      rw [List.flatMap_singleton, Automation.entry, Exchange.answer, quiet]
      rfl
    rw [text_entries, List.flatMap_append, plain_entries plain, ends, last,
      (Echo.legible_prompted legible).plain_append, Terminal.plain_nil, List.append_assoc]
    rfl
  apply Reconcile.reconcile_append_sentinel failed trimmed
  · rw [raw, joinWrapped_ends]
  · rw [closed, joinWrapped_closed t legible.oneLine]

variable (expected cache) in
/-- **The captures come to the same.** -/
theorem reconcile_agrees (plain : ∀ x ∈ xs, x.IsPlain)
    (once : ∀ x ∈ xs, Text.endsWith "\r\r".toList x.line = false)
    (nonzero : ∀ x ∈ xs, x.code? ≠ some 0) (succeeds : z.code? = none) (quiet : z.printed = [])
    (legible : Terminal.Legible z.line) (trimmed : Text.trim z.line = z.line) :
    let code := (Exchange.failure? xs).getD 0
    let r := reconcile (Console.logged .empty (Exchange.upToFailure (xs ++ [z]))).text expected
      z.line code cache
    let r' := reconcile (Automation.logged .empty (Exchange.upToFailure xs ++ [z])).text expected
      z.line code cache
    r.output = r'.output ∧ r.artifacts = r'.artifacts ∧ r.error = r'.error := by
  intro code
  have sent := (Exchange.upToFailure_isPrefix xs).subset
  cases hfail : Exchange.failure? xs with
  | none =>
    rw [Exchange.upToFailure_concat hfail succeeds, Exchange.upToFailure_eq_self hfail,
      reconcile_same]
    · exact ⟨rfl, rfl, rfl⟩
    · intro x m
      rcases List.mem_append.mp m with m | m
      · exact plain x m
      · rw [List.mem_singleton.mp m]
        exact Exchange.isPlain_of_quiet quiet
    · intro x m
      rcases List.mem_append.mp m with m | m
      · exact once x m
      · rw [List.mem_singleton.mp m]
        exact legible.returnedOnce
  | some first =>
    obtain ⟨x, m, hx⟩ := List.exists_of_findSome?_eq_some hfail
    have failed : code ≠ 0 := by
      show (Exchange.failure? xs).getD 0 ≠ 0
      rw [hfail, Option.getD_some]
      exact fun h => nonzero x m (by rw [hx, h])
    have started : Exchange.upToFailure xs ≠ [] := by
      cases xs with
      | nil => exact absurd m List.not_mem_nil
      | cons x xs => exact List.cons_ne_nil _ _
    rw [Exchange.upToFailure_of_some hfail]
    exact reconcile_closed (fun y m => plain y (sent m)) (fun y m => once y (sent m)) started failed
      quiet legible trimmed

end Captures

/-! ## Executing -/

/-- What the program prints for the lines of a chunk, the sentinel last. -/
structure Replies (chunk : Chunk) (xs : List Exchange) (z : Exchange) : Prop where
  /-- Each line that is sent has an exchange. -/
  lines : chunk.submissionLines = xs.map (·.line) ++ [z.line]
  /-- The last of them is the sentinel. -/
  closing : z.line = chunk.sentinel
  /-- Nothing is printed for it. -/
  quiet : z.printed = []
  /-- Nothing that is printed is taken out of raw output. -/
  plain : ∀ x ∈ xs, x.IsPlain
  /-- No return code is zero. -/
  nonzero : ∀ x ∈ xs, x.code? ≠ some 0

/-- The exchanges come over a console. -/
structure OverConsole {σ : Type} [LineChannel σ] (xs : List Exchange) (z : Exchange)
    (h : Host (Console (Recorded σ))) : Prop where
  /-- Nothing is left over from before. -/
  empty : h.guest.buffer = []
  /-- The channel answers the lines, as far as they are sent. -/
  answers : ∃ left after, Console.Answers (Exchange.upToFailure (xs ++ [z])) h.guest.timeout
    ⟨h.guest.channel.peer, h.disk⟩ left after

/-- The exchanges come through the log of an application. -/
structure OverLog {α : Type} [Application α] (indirect : Bool) (xs : List Exchange) (z : Exchange)
    (h : Host (Automation (Recorded α))) : Prop where
  /-- Nothing is left over from before. -/
  read : Automation.ReadToEnd (Automation.Call.ofHost h)
  /-- The application answers the lines as far as they are submitted, and takes the sentinel. -/
  logs : ∃ left between after, Automation.Logs h.guest.logPath h.guest.pollInterval indirect
      (Exchange.upToFailure xs) h.guest.timeout ⟨h.guest.application.peer, h.disk⟩ left between ∧
    Automation.Closes h.guest.logPath z between after

section Runs

variable {σ : Type} [LineChannel σ] {α : Type} [Application α] {code : Text} {disk : Disk}
  {xs : List Exchange} {z : Exchange}

/-- What a buffer comes to over a console, and what the channel was asked. -/
theorem execute_overConsole {h : Host (Session (Console (Recorded σ)))} (run : IsRun code h disk)
    (replies : Replies (chunkFor h.guest.settings h.guest.context code) xs z)
    (reached : OverConsole xs z ⟨h.guest.transport, disk⟩) :
    (execute code h).1 = h.guest.resultOf (chunkFor h.guest.settings h.guest.context code)
        ⟨{ Console.logged .empty (Exchange.upToFailure (xs ++ [z])) with
          returnCode := (Exchange.failure? xs).getD 0 }, none⟩ ∧
      (execute code h).2.guest.transport.channel.calls
        = ((Exchange.upToFailure (xs ++ [z])).map fun x => PeerCall.sendLine x.line).reverse
          ++ h.guest.transport.channel.calls := by
  obtain ⟨left, after, answers⟩ := reached.answers
  have hrun := Console.run_of_answers replies.lines replies.plain
    (Exchange.isPlain_of_quiet replies.quiet) (z.code?_of_sentinel replies.closing replies.quiet)
    (h := ⟨h.guest.transport, disk⟩) reached.empty
    (answers.recorded h.guest.transport.channel.calls)
  rw [execute_of_isRun run]
  generalize chunkFor h.guest.settings h.guest.context code = chunk at hrun ⊢
  have ran := runChunk_of_run
    { h.guest with context := contextAfter h.guest.settings h.guest.context code } disk chunk hrun
  rw [ran]
  exact ⟨rfl, rfl⟩

/-- What a buffer comes to through a log, and what the application was asked to run. -/
theorem execute_overLog {h : Host (Session (Automation (Recorded α)))} (run : IsRun code h disk)
    (replies : Replies (chunkFor h.guest.settings h.guest.context code) xs z)
    (reached : OverLog (chunkFor h.guest.settings h.guest.context code).indirect xs z
      ⟨h.guest.transport, disk⟩) :
    (execute code h).1 = h.guest.resultOf (chunkFor h.guest.settings h.guest.context code)
        ⟨{ Automation.logged .empty (Exchange.upToFailure xs ++ [z]) with
          returnCode := (Exchange.failure? xs).getD 0 }, none⟩ ∧
      (execute code h).2.guest.transport.application.calls.filterMap Automation.submission?
        = ((Exchange.upToFailure xs ++ [z]).map (·.line)).reverse
          ++ h.guest.transport.application.calls.filterMap Automation.submission? := by
  obtain ⟨left, between, after, logs, closes⟩ := reached.logs
  obtain ⟨calls, logs', submitted⟩ := logs.recorded h.guest.transport.application.calls
  have clean : '\r' ∉ z.line := by
    rw [replies.closing]
    exact notMem_sentinel.2.1
  obtain ⟨h', hrun, happlication, -⟩ := Automation.run_of_logs replies.lines replies.nonzero
    replies.quiet clean (h := ⟨h.guest.transport, disk⟩) reached.read logs' (closes.recorded calls)
  rw [execute_of_isRun run]
  generalize chunkFor h.guest.settings h.guest.context code = chunk at hrun ⊢
  have ran := runChunk_of_run
    { h.guest with context := contextAfter h.guest.settings h.guest.context code } disk chunk hrun
  rw [ran]
  refine ⟨rfl, ?_⟩
  dsimp only
  rw [happlication, List.map_append, List.reverse_append, List.append_assoc, ← submitted]
  rfl

/-- **Both transports come to the same.** The same buffer is executed in two sessions alike, over a
console and over an application with a log. What the program prints for the lines is the same, it
holds no carriage return and no escape, no return code in it is zero, and no line that is sent ends
in two carriage returns. Then return code, output, graphs and error are the same. When a chunk is
run, both are sent its lines up to the first that fails; the application is sent the sentinel even
then. -/
theorem execute_agrees {a : Host (Session (Console (Recorded σ)))}
    {b : Host (Session (Automation (Recorded α)))} (settings : b.guest.settings = a.guest.settings)
    (context : b.guest.context = a.guest.context)
    (alike : (∃ disk, IsRun code a disk) ↔ ∃ disk, IsRun code b disk)
    (once : ∀ line ∈ (chunkFor a.guest.settings a.guest.context code).submissionLines,
      Text.endsWith "\r\r".toList line = false)
    (replies : ∀ disk disk', IsRun code a disk → IsRun code b disk' →
      let chunk := chunkFor a.guest.settings a.guest.context code
      Replies chunk xs z ∧ OverConsole xs z ⟨a.guest.transport, disk⟩ ∧
        OverLog chunk.indirect xs z ⟨b.guest.transport, disk'⟩) :
    let r := (execute code a).1
    let r' := (execute code b).1
    r.returnCode = r'.returnCode ∧ r.output = r'.output ∧ r.artifacts = r'.artifacts ∧
      r.error = r'.error ∧ r.metaCommand = r'.metaCommand ∧
      ((∃ disk, IsRun code a disk) →
        (execute code a).2.guest.transport.channel.calls
          = ((Exchange.upToFailure (xs ++ [z])).map fun x => PeerCall.sendLine x.line).reverse
            ++ a.guest.transport.channel.calls ∧
        (execute code b).2.guest.transport.application.calls.filterMap Automation.submission?
          = ((Exchange.upToFailure xs ++ [z]).map (·.line)).reverse
            ++ b.guest.transport.application.calls.filterMap Automation.submission?) := by
  intro r r'
  by_cases runs : ∃ disk, IsRun code a disk
  · obtain ⟨disk, run⟩ := runs
    obtain ⟨disk', run'⟩ := alike.mp ⟨disk, run⟩
    obtain ⟨replied, console, application⟩ := replies disk disk' run run'
    obtain ⟨result, calls⟩ := execute_overConsole run replied console
    have onceEach : ∀ x ∈ xs, Text.endsWith "\r\r".toList x.line = false := by
      intro x m
      apply once
      rw [replied.lines]
      exact List.mem_append_left _ (List.mem_map_of_mem m)
    rw [← settings, ← context] at replied application
    obtain ⟨result', calls'⟩ := execute_overLog run' replied application
    have legible : Terminal.Legible z.line := by
      rw [replied.closing]
      exact legible_sentinel
    have trimmed : Text.trim z.line = z.line := by
      rw [replied.closing]
      exact trim_sentinel
    obtain ⟨output, artifacts, error⟩ := reconcile_agrees
      (chunkFor b.guest.settings b.guest.context code).exclusion b.guest.settings.cache replied.plain onceEach replied.nonzero
      (z.code?_of_sentinel replied.closing replied.quiet) replied.quiet legible trimmed
    rw [replied.closing] at output artifacts error
    rw [← settings, ← context] at result
    have hr : r = a.guest.resultOf (chunkFor b.guest.settings b.guest.context code) _ := result
    have hr' : r' = b.guest.resultOf (chunkFor b.guest.settings b.guest.context code) _ := result'
    unfold resultOf at hr hr'
    rw [← settings] at hr
    rw [hr, hr']
    refine ⟨rfl, output, artifacts, ?_, rfl, fun _ => ⟨calls, calls'⟩⟩
    dsimp only
    rw [error]
  · have same : r = early a.guest.settings a.guest.context code :=
      execute_of_not_isRun fun disk run => runs ⟨disk, run⟩
    have same' : r' = early b.guest.settings b.guest.context code :=
      execute_of_not_isRun fun disk run => runs (alike.mpr ⟨disk, run⟩)
    rw [settings, context] at same'
    have hr : r = r' := same.trans same'.symm
    rw [hr]
    exact ⟨rfl, rfl, rfl, rfl, rfl, fun run => absurd run runs⟩

end Runs

/-! ## Over a teletype and a scribe -/

/-- A disk with a log on it. -/
def logDisk : Disk := ⟨[(["log".toList, "work".toList], some (.file [])),
  (["work".toList], some .directory)], ["work".toList]⟩

/-- A session over a teletype that prints what exchanges say, given time for them. -/
def teletypeSession (settings : AssemblySettings) (xs : List Exchange) (z : Exchange) :
    Host (Session (Console (Recorded Teletype))) :=
  let sent := Exchange.upToFailure (xs ++ [z])
  ⟨⟨.ofChannel (.ofPeer ⟨sent.map (·.printed) ++ [], none⟩) (2 * sent.length), settings, .initial,
    80⟩, logDisk⟩

/-- A session over a scribe that logs what exchanges say. -/
def scribeSession (settings : AssemblySettings) (xs : List Exchange) (z : Exchange) :
    Host (Session (Automation (Recorded Scribe))) :=
  let script := (Exchange.upToFailure xs).map (·.printed) ++ [z.printed]
  ⟨⟨.ofApplication (.ofPeer ⟨"log".toList, script, 0⟩) ⟨"log".toList, 0⟩ 1 1, settings, .initial,
    80⟩, logDisk⟩

theorem overConsole_teletype (settings : AssemblySettings) (xs : List Exchange) (z : Exchange) :
    OverConsole xs z ⟨(teletypeSession settings xs z).guest.transport, logDisk⟩ := by
  obtain ⟨left, answers⟩ :=
    Teletype.answers (Exchange.upToFailure (xs ++ [z])) [] logDisk _ (Nat.le_refl _)
  exact ⟨rfl, left, _, answers⟩

theorem overLog_scribe (settings : AssemblySettings) (indirect : Bool) (xs : List Exchange)
    (z : Exchange) :
    OverLog indirect xs z ⟨(scribeSession settings xs z).guest.transport, logDisk⟩ := by
  have opened : logDisk.read "log".toList = some [] := by decide
  obtain ⟨disk, code, logs, bytes, holds⟩ := Scribe.logs (Exchange.upToFailure xs) [z.printed] 1
    indirect Nat.one_pos opened 0
  obtain ⟨after, closes⟩ := Scribe.closes holds z [] code
  exact ⟨⟨[], opened, rfl, rfl⟩, 1, _, after, logs, closes⟩

/-- The exchange of the sentinel of a buffer. -/
def closing (settings : AssemblySettings) (code : Text) : Exchange :=
  .silent (chunkFor settings .initial code).sentinel notMem_sentinel.1

/-- The two sessions come to the same where the second statement fails. -/
theorem execute_agrees_unrecognized :
    let settings := AssemblySettings.default ⟨"cache".toList⟩
    let failure := ["command zz is unrecognized".toList, "r(199);".toList]
    let xs : List Exchange := [⟨"di 1".toList, ["1".toList], by decide, by decide⟩,
      ⟨"zz".toList, failure, by decide, by decide⟩, .silent "di 2".toList (by decide)]
    let code := "di 1\nzz\ndi 2".toList
    let z := closing settings code
    let a := teletypeSession settings xs z
    let b := scribeSession settings xs z
    (execute code a).1.output = (execute code b).1.output ∧
      (execute code a).1.error = (execute code b).1.error ∧
      (execute code a).2.guest.transport.channel.calls
        = [.sendLine "zz".toList, .sendLine "di 1".toList] ∧
      (execute code b).2.guest.transport.application.calls.filterMap Automation.submission?
        = [z.line, "zz".toList, "di 1".toList] := by
  intro settings failure xs code z a b
  have complete : (Analysis.ofCode (executedCode code) .newline).incomplete? = none := by
    decide +kernel
  have nonempty : (chunkFor settings .initial code).body ≠ [] := by decide +kernel
  have direct : (chunkFor settings .initial code).indirect = false := by decide +kernel
  have lines := submissionLines_of_body (xs.map (·.line)) nonempty direct
    (by decide +kernel)
  have replies : Replies (chunkFor settings .initial code) xs z :=
    ⟨lines, rfl, rfl, by unfold Exchange.IsPlain; decide, by decide⟩
  have runA : ∀ disk, IsRun code a disk ↔ disk = logDisk := fun disk =>
    isRun_iff_of_direct a rfl complete nonempty direct
  have runB : ∀ disk, IsRun code b disk ↔ disk = logDisk := fun disk =>
    isRun_iff_of_direct b rfl complete nonempty direct
  have alike : (∃ disk, IsRun code a disk) ↔ ∃ disk, IsRun code b disk :=
    ⟨fun _ => ⟨logDisk, (runB _).mpr rfl⟩, fun _ => ⟨logDisk, (runA _).mpr rfl⟩⟩
  have replied : ∀ disk disk', IsRun code a disk → IsRun code b disk' →
      let chunk := chunkFor settings .initial code
      Replies chunk xs z ∧ OverConsole xs z ⟨a.guest.transport, disk⟩ ∧
        OverLog chunk.indirect xs z ⟨b.guest.transport, disk'⟩ := by
    intro disk disk' run run'
    obtain rfl := (runA disk).mp run
    obtain rfl := (runB disk').mp run'
    exact ⟨replies, overConsole_teletype settings xs z, overLog_scribe settings _ xs z⟩
  obtain ⟨-, output, -, error, -, calls⟩ :=
    execute_agrees rfl rfl alike (by decide +kernel) replied
  obtain ⟨callsA, callsB⟩ := calls ⟨logDisk, (runA _).mpr rfl⟩
  exact ⟨output, error, callsA, callsB⟩

/-- Where a line that is sent ends in two carriage returns, the errors quote it in two ways. Such a
line is part of a path to the graphs, if the cache directory has a line end in its name. -/
theorem execute_disagrees_carriageReturns :
    let settings := AssemblySettings.default ⟨"a\r\r\nb".toList⟩
    let code := "scatter y x".toList
    let chunk := chunkFor settings .initial code
    ∃ xs z, Replies chunk xs z ∧ (∀ x ∈ xs, x.line ≠ z.line) ∧
      OverConsole xs z ⟨(teletypeSession settings xs z).guest.transport, logDisk⟩ ∧
      OverLog chunk.indirect xs z ⟨(scribeSession settings xs z).guest.transport, logDisk⟩ ∧
      (execute code (teletypeSession settings xs z)).1.error
        ≠ (execute code (scribeSession settings xs z)).1.error := by
  intro settings code chunk
  let z := closing settings code
  let xs : List Exchange := [.silent "scatter y x".toList (by decide),
    .silent "noi gr export \"a\r\r".toList (by decide),
    .silent ("b/graph$\x7bstata_kernel_graph_counter\x7d.svg\", width(600) height(400) replace").toList
      (by decide),
    .silent ("global stata_kernel_graph_counter = $\x7bstata_kernel_graph_counter\x7d + 1").toList
      (by decide)]
  have complete : (Analysis.ofCode (executedCode code) .newline).incomplete? = none := by
    decide +kernel
  have nonempty : chunk.body ≠ [] := by decide +kernel
  have direct : chunk.indirect = false := by decide +kernel
  have lines := submissionLines_of_body (xs.map (·.line)) nonempty direct
    (by decide +kernel)
  have replies : Replies chunk xs z :=
    ⟨lines, rfl, rfl, by unfold Exchange.IsPlain; decide, by decide⟩
  have runA : IsRun code (teletypeSession settings xs z) logDisk :=
    (isRun_iff_of_direct (teletypeSession settings xs z) rfl complete nonempty direct).mpr rfl
  have runB : IsRun code (scribeSession settings xs z) logDisk :=
    (isRun_iff_of_direct (scribeSession settings xs z) rfl complete nonempty direct).mpr rfl
  have distinct : ∀ x ∈ xs, x.line ≠ z.line := by decide +kernel
  have overConsole := overConsole_teletype settings xs z
  have overLog := overLog_scribe settings chunk.indirect xs z
  obtain ⟨console, -⟩ := execute_overConsole runA replies overConsole
  obtain ⟨application, -⟩ := execute_overLog runB replies overLog
  refine ⟨xs, z, replies, distinct, overConsole, overLog, ?_⟩
  intro same
  have errors := (congrArg (·.error) console).symm.trans
    (same.trans (congrArg (·.error) application))
  exact absurd errors (by decide +kernel)

end DoRunner.Session
