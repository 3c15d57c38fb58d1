import DoRunner.Proofs.Echo.Account
import DoRunner.Proofs.Transport.LogReadOnce

/-!
# Whether the end that was seen is found again

A call to an application is over when its log shows the echo of the sentinel. Later, when the output
is lined up with the submitted lines, that echo is looked for once more. The two looks are not the
same. The first wants a point at the start of a line and does not ask what separates it from the
sentinel; it looks at the tail of the log alone, and as it stands. The second wants a space behind
the point; it looks at all that was captured, and takes terminal sequences out before it does.

So what the first look accepts the second finds when the log had ended its line before the sentinel
came, when there is a space behind the point, and when no terminal sequence stands in the tail
(`run_sentinelSeen`). None of the three can be left out: without any one of them, a call that ended
well, with no failure and the return code zero, is reported to lack its sentinel
(`Trickle.run_sentinelMissing`).
-/

namespace DoRunner

/-! ## Two ways to know an echo -/

namespace Echo

/-- What stands behind a point and a space is the content of an echo, but for a second space. -/
theorem echoContent?_pointed (rest : Text) :
    ∃ content, echoContent? ('.' :: ' ' :: rest) = some content ∧
      Text.trim content = Text.trim rest := by
  cases rest with
  | nil => exact ⟨[], rfl, rfl⟩
  | cons c rest =>
    by_cases hc : c = ' '
    · rw [hc]
      exact ⟨rest, rfl, (Text.trim_cons_of_isBlank (by decide) rest).symm⟩
    · refine ⟨c :: rest, ?_, rfl⟩
      apply echoContent?_prompted
      rw [List.head?_cons]
      exact fun same => hc (Option.some.inj same)

/-- **Where the two looks agree on a line.** What the first takes for the echo of the sentinel, the
second does exactly if there is a space behind the point. -/
theorem echoesSentinel_iff_of_echoes {line sentinel : Text}
    (h : Automation.echoes line sentinel = true) :
    Reconcile.echoesSentinel sentinel line = true ↔ Text.startsWith ". ".toList line = true := by
  unfold Automation.echoes at h
  split at h
  · rename_i rest
    have same : Text.trim rest = Text.trim sentinel := beq_iff_eq.mp h
    rw [Text.startsWith_iff]
    constructor
    · intro found
      cases rest with
      | nil => exact absurd found (by rw [Reconcile.echoesSentinel_of_echoContent? rfl]; simp)
      | cons c rest =>
        by_cases hc : c = ' '
        · exact ⟨rest, by rw [hc]; rfl⟩
        · have unmarked : echoContent? ('.' :: c :: rest) = none := by
            unfold echoContent?
            simp [hc]
          rw [Reconcile.echoesSentinel_of_echoContent? unmarked] at found
          exact absurd found Bool.false_ne_true
    · rintro ⟨more, he⟩
      obtain rfl : rest = ' ' :: more := (List.cons.inj he).2
      obtain ⟨content, marked, trimmed⟩ := echoContent?_pointed more
      have equal : Text.trim content = Text.trim sentinel := by
        rw [trimmed, ← same, Text.trim_cons_of_isBlank (by decide)]
      rw [Reconcile.echoesSentinel, matchEcho, marked]
      dsimp only
      rw [if_pos equal]
      rfl
  · exact absurd h Bool.false_ne_true

/-! ## Lines before the tail -/

theorem not_looksLikeEcho_of_continues {line : Text} (h : Continues line) :
    looksLikeEcho line = false := by
  obtain ⟨rest, rfl⟩ := Text.startsWith_iff.mp h
  rfl

theorem not_continues_of_pointed {line : Text} (h : Text.startsWith ". ".toList line = true) :
    ¬ Continues line := by
  obtain ⟨rest, rfl⟩ := Text.startsWith_iff.mp h
  exact not_continues_prompted rest

/-- A line with a point stays what it is when more lines are put before it: those that continue
something before it have ended when it comes. -/
theorem mem_joinOnto_cons {line previous next : Text} {ls : List Text}
    (m : line ∈ joinOnto next ls) (pointed : Text.startsWith ". ".toList line = true) :
    line ∈ joinOnto previous (next :: ls) := by
  induction ls generalizing previous next with
  | nil =>
    obtain rfl := List.mem_singleton.mp m
    rw [joinOnto, after?_of_not_continues (not_continues_of_pointed pointed)]
    exact List.mem_cons_of_mem previous m
  | cons after ls ih =>
    rw [joinOnto]
    split
    · rename_i rest continued
      split
      · -- `next` is joined onto `previous`; in the tail alone it is joined onto nothing, and what
        -- follows it begins anew
        have continues : Continues next := by
          rw [Continues, Text.startsWith, continued]
          rfl
        have alone : joinOnto next (after :: ls) = next :: joinOnto after ls := by
          rw [joinOnto, not_looksLikeEcho_of_continues continues]
          split <;> rfl
        rw [alone] at m
        rcases List.mem_cons.mp m with rfl | m
        · exact absurd continues (not_continues_of_pointed pointed)
        · exact ih m
      · exact List.mem_cons_of_mem previous m
    · exact List.mem_cons_of_mem previous m

/-- **More output before the tail** takes no line with a point away. -/
theorem mem_joinWrapped_append {line front tail : Text} (m : line ∈ joinWrapped tail)
    (pointed : Text.startsWith ". ".toList line = true) :
    line ∈ joinWrapped (front ++ '\n' :: tail) := by
  unfold joinWrapped at m ⊢
  rw [Text.lines_append_lf]
  cases tailLines : Text.lines tail with
  | nil => exact absurd tailLines (Text.lines_ne_nil tail)
  | cons next ls =>
    rw [tailLines] at m
    cases frontLines : Text.lines front with
    | nil => exact absurd frontLines (Text.lines_ne_nil front)
    | cons previous more =>
      dsimp only [List.cons_append] at m ⊢
      clear frontLines tailLines
      induction more generalizing previous with
      | nil => exact mem_joinOnto_cons m pointed
      | cons after more ih =>
        rw [List.cons_append, joinOnto]
        split
        · split
          · exact ih _
          · exact List.mem_cons_of_mem previous (ih after)
        · exact List.mem_cons_of_mem previous (ih after)

end Echo

/-! ## What is never reported -/

namespace Reconcile

/-- A walk reports nothing but echoes that are tied too loosely. -/
theorem error_foldl_ne {cacheRoot sentinel : Text} {s : State}
    (h : s.error ≠ some (.sentinelMissing sentinel)) (ls : List Text) :
    (ls.foldl (step cacheRoot) s).error ≠ some (.sentinelMissing sentinel) := by
  induction ls generalizing s with
  | nil => exact h
  | cons line ls ih =>
    refine ih ?_
    have met := step_meets cacheRoot s line
    generalize step cacheRoot s line = s' at met ⊢
    cases met with
    | echo =>
      dsimp only
      split
      · cases he : s.error with
        | none => simp
        | some x => rw [he] at h; exact h
      · exact h
    | note => exact h
    | early => exact h
    | output => exact h

/-- Where the echo of the sentinel is found, it is not reported as missing. -/
theorem reconcile_of_echoesSentinel {raw line sentinel : Text}
    (m : line ∈ Echo.joinWrapped (Terminal.plain raw)) (echo : echoesSentinel sentinel line = true)
    (expected : List ExpectedLine) (returnCode : Int) (cache : CachePaths) :
    (reconcile raw expected sentinel returnCode cache).sentinelSeen = true ∧
      (reconcile raw expected sentinel returnCode cache).error
        ≠ some (.sentinelMissing sentinel) := by
  have seen : (Echo.joinWrapped (Terminal.plain raw)).any (echoesSentinel sentinel) = true :=
    List.any_eq_true.mpr ⟨line, m, echo⟩
  have onTheWay : (afterLog raw expected sentinel cache).error ≠ some (.sentinelMissing sentinel) :=
    error_foldl_ne (by simp [State.initial]) _
  rw [reconcile_eq]
  dsimp only
  rw [seen]
  refine ⟨rfl, ?_⟩
  unfold verdict
  split
  · exact onTheWay
  · cases he : (afterLog raw expected sentinel cache).error with
    | some x => rw [he] at onTheWay; exact onTheWay
    | none =>
      cases (afterLog raw expected sentinel cache).expected.find? fun line => line.kind != .silent with
      | some line => simp
      | none => simp

end Reconcile

/-! ## A call that succeeds -/

namespace Automation

/-- What the tail of a log shows of the sentinel is shown plainly. -/
structure PlainlyShown (sentinel before tail : Text) : Prop where
  /-- Before it the log has ended its last line. -/
  whole : Text.Whole before
  /-- It holds no terminal sequence. -/
  bare : '\x1b' ∉ tail
  /-- There is a space behind the point of each echo. -/
  pointed : ∀ line ∈ Echo.joinWrapped (Terminal.dropCarriageReturns tail),
    echoes line sentinel = true → Text.startsWith ". ".toList line = true

theorem mem_dropCarriageReturns {c : Char} {t : Text} (m : c ∈ Terminal.dropCarriageReturns t) :
    c ∈ t := by
  fun_induction Terminal.dropCarriageReturns t with
  | case1 t ih =>
    rcases List.mem_cons.mp m with rfl | m
    · exact List.mem_cons_of_mem _ List.mem_cons_self
    · exact List.mem_cons_of_mem _ (List.mem_cons_of_mem _ (ih m))
  | case2 d t h ih =>
    rcases List.mem_cons.mp m with rfl | m
    · exact List.mem_cons_self
    · exact List.mem_cons_of_mem _ (ih m)
  | case3 => exact m

/-- What is plainly shown at the end of the log is found in all that was captured. -/
theorem exists_echo_of_plainlyShown {sentinel before tail : Text}
    (plainly : PlainlyShown sentinel before tail) (shown : showsSentinel sentinel tail = true) :
    ∃ line ∈ Echo.joinWrapped (Terminal.plain (before ++ tail)),
      Reconcile.echoesSentinel sentinel line = true := by
  obtain ⟨line, m, echo⟩ := List.any_eq_true.mp shown
  have pointed := plainly.pointed line m echo
  refine ⟨line, ?_, (Echo.echoesSentinel_iff_of_echoes echo).mpr pointed⟩
  have tailPlain : Terminal.strip (Terminal.dropCarriageReturns tail)
      = Terminal.dropCarriageReturns tail :=
    Terminal.strip_of_notMem fun h => plainly.bare (mem_dropCarriageReturns h)
  rcases List.eq_nil_or_concat before with rfl | ⟨front, c, rfl⟩
  · rw [List.nil_append, Terminal.plain, tailPlain]
    exact m
  · rw [List.concat_eq_append]
    obtain rfl : c = '\n' := plainly.whole c (by rw [List.concat_eq_append, List.getLast?_concat])
    obtain ⟨u, hu⟩ := Terminal.dropCarriageReturns_ends_lf front
    have cut : Terminal.plain (front ++ ['\n'] ++ tail)
        = Terminal.strip u ++ '\n' :: Terminal.dropCarriageReturns tail := by
      rw [List.append_assoc, List.singleton_append, Terminal.plain,
        Terminal.dropCarriageReturns_append_lf, hu, List.append_assoc, List.singleton_append,
        Terminal.strip_append_lf, tailPlain]
    rw [cut]
    exact Echo.mem_joinWrapped_append m pointed

section Runs

variable {α : Type} [Application α]

theorem showsSentinel_of_tailUntil {sentinel collected tail : Text} {c c' : Call α}
    (tailed : tailUntil sentinel collected c = .ok tail c') : showsSentinel sentinel tail = true := by
  fun_induction tailUntil sentinel collected c with
  | case1 => exact absurd tailed (by simp)
  | case2 collected c gained c₁ looks found =>
    rw [← (EStateM.Result.ok.inj tailed).1]
    exact found
  | case3 => exact absurd tailed (by simp)
  | case4 collected c gained c₁ looks waits left inTime ih => exact ih tailed

/-- **A call that succeeds has seen its end, and where that was shown plainly it is found again.** -/
theorem run_sentinelSeen {chunk : Chunk} {capture : RawCapture} {h after : Host (Automation α)}
    (last : chunk.submissionLines.getLast? = some chunk.sentinel)
    (ran : run chunk h = (⟨capture, none⟩, after)) :
    ∃ before tail, capture.text = before ++ tail ∧
      capture.transcript.getLast? = some ⟨chunk.sentinel, tail⟩ ∧
      showsSentinel chunk.sentinel tail = true ∧
      (PlainlyShown chunk.sentinel before tail → ∀ expected returnCode cache,
        (reconcile capture.text expected chunk.sentinel returnCode cache).sentinelSeen = true ∧
        (reconcile capture.text expected chunk.sentinel returnCode cache).error
          ≠ some (.sentinelMissing chunk.sentinel)) := by
  unfold run at ran
  cases lines : runLines chunk.indirect chunk.submissionLines (Call.ofHost h) with
  | error e c =>
    rw [lines] at ran
    exact absurd (congrArg (·.1.failure) ran) (by simp)
  | ok u c =>
    rw [lines] at ran
    obtain rfl : c.capture = capture := congrArg (·.1.capture) ran
    rcases runLines_ok lines with ⟨none, -⟩ | ⟨front, sentinel, _, c₁, c₂, tail, c₃, split, -, -,
      tailed, rfl, -⟩
    · rw [none] at last
      exact absurd last (by simp)
    · rw [split, List.getLast?_concat] at last
      obtain rfl : sentinel = chunk.sentinel := Option.some.inj last
      have shown := showsSentinel_of_tailUntil tailed
      refine ⟨c₃.capture.text, tail, rfl, List.getLast?_concat, shown, ?_⟩
      intro plainly expected returnCode cache
      obtain ⟨line, m, echo⟩ := exists_echo_of_plainlyShown plainly shown
      exact Reconcile.reconcile_of_echoesSentinel m echo expected returnCode cache

end Runs

end Automation

/-! ## One line and its sentinel -/

namespace Trickle

open Automation

/-- A line that must be echoed, and its sentinel. -/
def statement : Chunk :=
  ⟨["di a".toList], false, ['z'], "di a\n".toList ++ sentinelOf ['z'],
    [⟨"di a".toList, .statement⟩], 0⟩

/-- A disk with a log of one byte. -/
def logged : Disk := Disk.empty.put ["log0.log".toList, "work".toList] (some (.file [0x61]))

/-- The application with a log that gains two texts, one for the line and one for the sentinel. -/
def shows (line sentinel : Text) : Host (Automation Trickle) :=
  ⟨⟨⟨"log0.log".toList, [Utf8.encode line, Utf8.encode sentinel]⟩, "log0.log".toList, 1, .empty,
    0, 0⟩, logged⟩

/-- The call captures both texts, if the second shows the sentinel. -/
theorem run_shows {line sentinel : Text}
    (decoded : Utf8.Carry.empty.decode (Utf8.encode line) = (line, .empty) ∧
      Utf8.Carry.empty.decode (Utf8.encode sentinel) = (sentinel, .empty))
    (found : showsSentinel statement.sentinel sentinel = true) :
    ∃ after, run statement (shows line sentinel) = (⟨⟨line ++ sentinel, 0,
      [⟨"di a".toList, line⟩, ⟨statement.sentinel, sentinel⟩]⟩, none⟩, after) := by
  have submission : statement.submissionLines = ["di a".toList, statement.sentinel] := by
    decide +kernel
  have holds : logged.read "log0.log".toList = some [0x61] := by decide +kernel
  obtain ⟨_, -, ran⟩ :=
    run_of_pieces [] 0 0 rfl submission holds decoded.1 decoded.2 found
  exact ⟨_, ran⟩

/-- A sentinel whose echo is wrapped, in a log with carriage returns. -/
theorem run_sentinelSeen_wrapped :
    ∃ capture after,
      run statement (shows ". di a\r\none\r\n".toList ". \x60\r\n> z'\r\n".toList)
        = (⟨capture, none⟩, after) ∧
      (reconcile capture.text statement.exclusion statement.sentinel 0 ⟨[]⟩).sentinelSeen = true := by
  have decoded : Utf8.Carry.empty.decode (Utf8.encode ". di a\r\none\r\n".toList)
        = (". di a\r\none\r\n".toList, .empty) ∧
      Utf8.Carry.empty.decode (Utf8.encode ". \x60\r\n> z'\r\n".toList)
        = (". \x60\r\n> z'\r\n".toList, .empty) := by
    decide +kernel
  obtain ⟨after, ran⟩ := run_shows decoded (by decide +kernel)
  have last : statement.submissionLines.getLast? = some statement.sentinel := by decide +kernel
  obtain ⟨before, tail, text, entry, -, seen⟩ := run_sentinelSeen last ran
  obtain rfl : ". \x60\r\n> z'\r\n".toList = tail :=
    congrArg TranscriptEntry.raw (Option.some.inj entry)
  have whole : ". di a\r\none\r\n".toList = before := List.append_cancel_right text
  refine ⟨_, after, ran, (seen ⟨?_, by decide, by decide +kernel⟩ _ _ _).1⟩
  rw [← whole]
  exact Text.whole_of_getLast? rfl

/-- A call whose log shows `before` and then `tail` ends well, and yet its sentinel is missing. -/
def EndsUnfound (before tail : Text) : Prop :=
  ∃ capture after,
    run statement (shows before tail) = (⟨capture, none⟩, after) ∧ capture.returnCode = 0 ∧
    (reconcile capture.text statement.exclusion statement.sentinel 0 ⟨[]⟩).sentinelSeen = false ∧
    (reconcile capture.text statement.exclusion statement.sentinel 0 ⟨[]⟩).error
      = some (.sentinelMissing statement.sentinel)

/-- The first look finds the sentinel in the tail, the second does not find it in the whole. -/
theorem endsUnfound_of_looks {before tail : Text}
    (decoded : Utf8.Carry.empty.decode (Utf8.encode before) = (before, .empty) ∧
      Utf8.Carry.empty.decode (Utf8.encode tail) = (tail, .empty))
    (first : showsSentinel statement.sentinel tail = true)
    (second : (reconcile (before ++ tail) statement.exclusion statement.sentinel 0 ⟨[]⟩).sentinelSeen
        = false ∧
      (reconcile (before ++ tail) statement.exclusion statement.sentinel 0 ⟨[]⟩).error
        = some (.sentinelMissing statement.sentinel)) :
    EndsUnfound before tail := by
  obtain ⟨after, ran⟩ := run_shows decoded first
  exact ⟨_, after, ran, rfl, second⟩

/-- **A call may end well and lack its sentinel.** First the output of the line ends in no line feed,
then nothing separates the point from the sentinel, then a terminal sequence hides a mark of
continuation from the first look. -/
theorem run_sentinelMissing :
    EndsUnfound ". di a\none".toList ". \x60z'\n".toList ∧
      EndsUnfound ". di a\none\n".toList ".\x60z'\n".toList ∧
      EndsUnfound ". di a\none\n".toList ". \x60z'\n\x1b[m> more\n".toList := by
  refine ⟨endsUnfound_of_looks (by decide +kernel) (by decide +kernel) ?_,
    endsUnfound_of_looks (by decide +kernel) (by decide +kernel) ?_,
    endsUnfound_of_looks (by decide +kernel) (by decide +kernel) ?_⟩
  · unfold reconcile
    rw [Terminal.plain_eq_self (by decide) (by decide)]
    decide +kernel
  · unfold reconcile
    rw [Terminal.plain_eq_self (by decide) (by decide)]
    decide +kernel
  · have plain : Terminal.plain (". di a\none\n".toList ++ ". \x60z'\n\x1b[m> more\n".toList)
        = ". di a\none\n. \x60z'\n> more\n".toList := by
      have sequence : Terminal.sequenceLength? "[m> more\n".toList = some 2 := by decide
      have stripped : Terminal.strip "\x1b[m> more\n".toList = "> more\n".toList := by
        rw [show "\x1b[m> more\n".toList = '\x1b' :: "[m> more\n".toList from rfl, Terminal.strip,
          if_pos rfl, sequence]
        exact Terminal.strip_of_notMem (by decide)
      rw [Terminal.plain, Terminal.dropCarriageReturns_of_notMem (by decide)]
      refine (Terminal.strip_append_lf ". di a\none\n. \x60z'".toList
        "\x1b[m> more\n".toList).trans ?_
      rw [stripped, Terminal.strip_of_notMem (by decide)]
      rfl
    unfold reconcile
    dsimp only
    rw [plain]
    decide +kernel

end Trickle

end DoRunner
