import DoRunner.Echo.Reconcile
import DoRunner.Proofs.Echo.Prompts

/-!
# The walk over a log

A log is described by its **entries**: a submitted line, whether its echo came, and what was printed
after it. This module follows the walk over such a log, entry by entry, when every echo came. Each
echo is then claimed by the line it belongs to, everything printed is kept, and nothing else
happens.

What is printed must be **output**: tied to no expected line, no echo of the sentinel, and no note
about a graph of the session.
-/

namespace DoRunner.Reconcile

/-- A submitted line as a log shows it. -/
structure LogEntry where
  /-- The line. -/
  line : ExpectedLine
  /-- Whether its echo came. -/
  echoed : Bool
  /-- The lines printed after it. -/
  printed : List Text
deriving DecidableEq, Repr

namespace LogEntry

/-- The lines of the log that belong to the entry. -/
def lines (e : LogEntry) : List Text :=
  if e.echoed then Echo.prompted e.line.text :: e.printed else e.printed

/-- The entry with its echo. -/
def withEcho (e : LogEntry) : LogEntry := { e with echoed := true }

end LogEntry

/-- A line that is output wherever it stands in the log. -/
structure IsOutput (cacheRoot sentinel : Text) (expected : List ExpectedLine) (line : Text) :
    Prop where
  /-- No expected line is tied to it. -/
  unmatched : ∀ e ∈ expected, Echo.matchEcho line e.text = none
  /-- It does not echo the sentinel. -/
  noSentinel : echoesSentinel sentinel line = false
  /-- It reports no graph of the session as written. -/
  notWritten : (GraphNote.written? line).filter (Text.startsWith cacheRoot) = none
  /-- It reports no graph of the session as missing. -/
  notMissing : (GraphNote.notFound? line).any (Text.startsWith cacheRoot) = false

theorem IsOutput.mono {cacheRoot sentinel line : Text} {expected fewer : List ExpectedLine}
    (h : IsOutput cacheRoot sentinel expected line) (sub : ∀ e ∈ fewer, e ∈ expected) :
    IsOutput cacheRoot sentinel fewer line :=
  { h with unmatched := fun e m => h.unmatched e (sub e m) }

/-! ## Single steps -/

section Steps

variable {cacheRoot sentinel : Text}

theorem claim?_of_unmatched {line : Text} {expected : List ExpectedLine}
    (h : ∀ e ∈ expected, Echo.matchEcho line e.text = none) : claim? line expected = none := by
  induction expected with
  | nil => rfl
  | cons e more ih =>
    rw [claim?, h e List.mem_cons_self]
    dsimp only
    split
    · exact ih (fun e' m => h e' (List.mem_cons_of_mem _ m))
    · rfl

/-- Once an echo has been seen, output is kept. -/
theorem step_of_isOutput {s : State} {line : Text} (h : IsOutput cacheRoot sentinel s.expected line)
    (started : 0 < s.matched) :
    step cacheRoot s line = { s with output := line :: s.output } := by
  rw [step, claim?_of_unmatched h.unmatched]
  dsimp only
  rw [keep, h.notWritten]
  dsimp only
  rw [h.notMissing, if_neg (by decide), if_neg (by omega)]

theorem step_of_claim_exact {s : State} {line : Text} {e : ExpectedLine}
    {more : List ExpectedLine} (h : claim? line s.expected = some (e, .exact, more)) :
    step cacheRoot s line = { s with expected := more, matched := s.matched + 1 } := by
  rw [step, h]
  simp

/-- An exact echo of the next expected line is claimed by it. -/
theorem step_of_exact {s : State} {line : Text} {e : ExpectedLine} {more : List ExpectedLine}
    (he : s.expected = e :: more) (h : Echo.matchEcho line e.text = some .exact) :
    step cacheRoot s line = { s with expected := more, matched := s.matched + 1 } := by
  apply step_of_claim_exact (e := e)
  rw [he, claim?, h]

/-- The walk over a beginning of a log either ends there or goes on behind it. -/
theorem walk_append (s : State) (ls ms : List Text) :
    walk cacheRoot sentinel s (ls ++ ms) =
      if (walk cacheRoot sentinel s ls).2 then walk cacheRoot sentinel s ls
      else walk cacheRoot sentinel (walk cacheRoot sentinel s ls).1 ms := by
  induction ls generalizing s with
  | nil => rfl
  | cons line ls ih =>
    rw [List.cons_append, walk, walk]
    split
    · rw [if_pos rfl]
    · exact ih _

theorem walk_append_of_unseen {s s' : State} {ls : List Text}
    (h : walk cacheRoot sentinel s ls = (s', false)) (ms : List Text) :
    walk cacheRoot sentinel s (ls ++ ms) = walk cacheRoot sentinel s' ms := by
  rw [walk_append, h]
  rfl

theorem walk_cons_of_not_sentinel {line : Text} (h : echoesSentinel sentinel line = false)
    (s : State) (ls : List Text) :
    walk cacheRoot sentinel s (line :: ls)
      = walk cacheRoot sentinel (step cacheRoot s line) ls := by
  rw [walk, h, if_neg (by decide)]

theorem echoesSentinel_prompted {line : Text} (h : Text.trim line = line)
    (hne : line ≠ Text.trim sentinel) : echoesSentinel sentinel (Echo.prompted line) = false := by
  rw [echoesSentinel, beq_eq_false_iff_ne]
  exact fun he => hne ((Echo.matchEcho_prompted_eq_exact_iff h sentinel).mp he)

theorem echoesSentinel_of_echoContent? {line : Text} (h : Echo.echoContent? line = none) :
    echoesSentinel sentinel line = false := by
  rw [echoesSentinel, Echo.matchEcho_of_echoContent? h]
  rfl

/-- The walk ends at the prompted sentinel. -/
theorem walk_prompted_sentinel (h : Text.trim sentinel = sentinel) (s : State) (ls : List Text) :
    walk cacheRoot sentinel s (Echo.prompted sentinel :: ls) = (s, true) := by
  rw [walk, echoesSentinel, Echo.matchEcho_prompted_self h]
  rfl

/-! ## Plain lines -/

/-- A line that carries no marker and reports no graph. -/
structure IsPrinted (line : Text) : Prop where
  /-- It carries no marker of an echo. -/
  unmarked : Echo.echoContent? line = none
  /-- It reports no graph as written. -/
  notWritten : GraphNote.written? line = none
  /-- It reports no graph as missing. -/
  notMissing : GraphNote.notFound? line = none

theorem IsPrinted.isOutput {line : Text} (h : IsPrinted line) (expected : List ExpectedLine) :
    IsOutput cacheRoot sentinel expected line where
  unmatched := fun e _ => Echo.matchEcho_of_echoContent? h.unmarked e.text
  noSentinel := echoesSentinel_of_echoContent? h.unmarked
  notWritten := by rw [h.notWritten]; rfl
  notMissing := by rw [h.notMissing]; rfl

/-- An empty line is printed. -/
theorem isPrinted_nil : IsPrinted [] := ⟨rfl, rfl, rfl⟩

/-! ## Whole entries -/

/-- Everything printed is kept. -/
theorem walk_of_isOutput {ls : List Text} {s : State}
    (h : ∀ line ∈ ls, IsOutput cacheRoot sentinel s.expected line) (started : 0 < s.matched) :
    walk cacheRoot sentinel s ls = ({ s with output := ls.reverse ++ s.output }, false) := by
  induction ls generalizing s with
  | nil => rfl
  | cons line ls ih =>
    have hline := h line List.mem_cons_self
    have rest := ih (s := { s with output := line :: s.output })
      (fun l m => h l (List.mem_cons_of_mem _ m)) started
    rw [walk_cons_of_not_sentinel hline.noSentinel, step_of_isOutput hline started, rest]
    simp

variable (cacheRoot sentinel) in
/-- **A log in which every echo came.** The walk claims the lines of all entries in order and keeps
all that they printed. -/
theorem walk_echoed (s : State) (entries : List LogEntry) (more : List ExpectedLine)
    (hs : s.expected = entries.map (·.line) ++ more)
    (echoed : ∀ e ∈ entries, e.echoed = true)
    (trimmed : ∀ e ∈ entries, Text.trim e.line.text = e.line.text)
    (hsent : ∀ e ∈ entries, e.line.text ≠ Text.trim sentinel)
    (printed : ∀ e ∈ entries, ∀ line ∈ e.printed, IsOutput cacheRoot sentinel s.expected line) :
    walk cacheRoot sentinel s (entries.flatMap LogEntry.lines) =
      ({ s with
          expected := more
          matched := s.matched + entries.length
          output := (entries.flatMap (·.printed)).reverse ++ s.output }, false) := by
  induction entries generalizing s with
  | nil =>
    rw [List.map_nil, List.nil_append] at hs
    subst hs
    rfl
  | cons e entries ih =>
    have exact := Echo.matchEcho_prompted_self (trimmed e List.mem_cons_self)
    have fresh := echoesSentinel_prompted (trimmed e List.mem_cons_self)
      (hsent e List.mem_cons_self)
    have rest : ∀ x ∈ entries.map (·.line) ++ more, x ∈ s.expected := by
      intro x hx
      rw [hs, List.map_cons, List.cons_append]
      exact List.mem_cons_of_mem _ hx
    rw [List.map_cons, List.cons_append] at hs
    have own : walk cacheRoot sentinel
        { s with expected := entries.map (·.line) ++ more, matched := s.matched + 1 } e.printed = _ :=
      walk_of_isOutput (fun l m => (printed e List.mem_cons_self l m).mono rest) (Nat.succ_pos _)
    rw [List.flatMap_cons, LogEntry.lines, if_pos (echoed e List.mem_cons_self), List.cons_append,
      walk_cons_of_not_sentinel fresh, step_of_exact hs exact, walk_append_of_unseen own,
      ih _ rfl (fun x m => echoed x (List.mem_cons_of_mem _ m))
        (fun x m => trimmed x (List.mem_cons_of_mem _ m))
        (fun x m => hsent x (List.mem_cons_of_mem _ m))
        (fun x m l hl => (printed x (List.mem_cons_of_mem _ m) l hl).mono rest)]
    simp [Nat.add_assoc, Nat.add_comm 1]

end Steps

/-- **What is recovered from a log that the sentinel ends** is what the walk over the lines before
it found. -/
theorem reconcile_of_walk {raw sentinel : Text} {expected : List ExpectedLine} {cache : CachePaths}
    {s : State} {ls after : List Text} (returnCode : Int)
    (shown : Echo.joinWrapped (Terminal.plain raw) = ls ++ Echo.prompted sentinel :: after)
    (trimmed : Text.trim sentinel = sentinel)
    (walked : walk cache.rootForCommands sentinel (.initial expected) ls = (s, false)) :
    reconcile raw expected sentinel returnCode cache =
      { output := Text.unlines (trimBlankLines s.output.reverse)
        artifacts := s.artifacts.reverse
        matched := s.matched
        sentinelSeen := true
        error := verdict returnCode sentinel s true } := by
  unfold reconcile
  dsimp only
  rw [shown, walk_append_of_unseen walked, walk_prompted_sentinel trimmed]

/-- What is recovered from a log that ends before the sentinel is what the walk over all of it
found. -/
theorem reconcile_of_walk_unseen {raw sentinel : Text} {expected : List ExpectedLine}
    {cache : CachePaths} {s : State} (returnCode : Int)
    (walked : walk cache.rootForCommands sentinel (.initial expected)
      (Echo.joinWrapped (Terminal.plain raw)) = (s, false)) :
    reconcile raw expected sentinel returnCode cache =
      { output := Text.unlines (trimBlankLines s.output.reverse)
        artifacts := s.artifacts.reverse
        matched := s.matched
        sentinelSeen := false
        error := verdict returnCode sentinel s false } := by
  unfold reconcile
  dsimp only
  rw [walked]

/-! ## Blank lines at the ends -/

/-- A blank line at the end of the output does not count. -/
theorem trimBlankLines_append_blank {line : Text} (h : Text.blank line = true) (ls : List Text) :
    trimBlankLines (ls ++ [line]) = trimBlankLines ls := by
  unfold trimBlankLines
  rw [Text.dropWhile_reverse_dropWhile_append]
  intro x hx
  rw [List.mem_singleton.mp hx, h]

/-- **After a failure, the sentinel makes no difference.** Where a log ends with a line feed, an echo
of the sentinel behind it changes nothing about what is recovered. -/
theorem reconcile_append_sentinel {raw closed sentinel : Text} {expected : List ExpectedLine}
    {cache : CachePaths} {lines : List Text} {returnCode : Int} (failed : returnCode ≠ 0)
    (trimmed : Text.trim sentinel = sentinel)
    (hraw : Echo.joinWrapped (Terminal.plain raw) = lines ++ [[]])
    (hclosed : Echo.joinWrapped (Terminal.plain closed) = lines ++ [Echo.prompted sentinel, []]) :
    let r := reconcile raw expected sentinel returnCode cache
    let r' := reconcile closed expected sentinel returnCode cache
    r.output = r'.output ∧ r.artifacts = r'.artifacts ∧ r.error = r'.error := by
  generalize hw : walk cache.rootForCommands sentinel (.initial expected) lines = result
  obtain ⟨s, seen⟩ := result
  unfold reconcile
  dsimp only
  rw [hraw, hclosed, walk_append, walk_append, hw]
  cases seen with
  | true => exact ⟨rfl, rfl, rfl⟩
  | false =>
    dsimp only
    rw [if_neg (by decide), if_neg (by decide), walk_prompted_sentinel trimmed,
      walk_cons_of_not_sentinel (echoesSentinel_of_echoContent? isPrinted_nil.unmarked), walk]
    have idle : step cache.rootForCommands s [] = s ∨
        step cache.rootForCommands s [] = { s with output := [] :: s.output } := by
      have output : IsOutput cache.rootForCommands sentinel s.expected [] :=
        isPrinted_nil.isOutput s.expected
      rw [step, claim?_of_unmatched output.unmatched]
      by_cases hs : s.matched = 0
      · left
        show (if s.matched = 0 then s else _) = s
        rw [if_pos hs]
      · right
        show (if s.matched = 0 then s else _) = _
        rw [if_neg hs]
    dsimp only
    rcases idle with hi | hi
    · rw [hi]
      exact ⟨rfl, rfl, by rw [verdict, verdict, if_pos failed, if_pos failed]⟩
    · rw [hi]
      refine ⟨?_, rfl, by rw [verdict, verdict, if_pos failed, if_pos failed]⟩
      dsimp only
      rw [List.reverse_cons, trimBlankLines_append_blank rfl]

end DoRunner.Reconcile
