import DoRunner.Proofs.Echo.Walk

/-!
# What a line can be to the walk

The walk takes each line for one of four things: the echo of an expected line, a note about a graph
of the session, a line before the first echo, or output. `step_meets` says so once, with all that
the step does in each case, and what holds of a whole walk is proved by these four cases from what
holds of a step.

A walk ends at the first echo of the sentinel. So it is a fold over the lines before that echo
(`walk_eq_foldl`), and nothing behind the echo reaches it (`walk_throughSentinel`).
-/

namespace DoRunner.Reconcile

/-! ## Up to the sentinel -/

/-- The lines before the first echo of the sentinel. -/
def beforeSentinel (sentinel : Text) (ls : List Text) : List Text :=
  ls.takeWhile fun line => !echoesSentinel sentinel line

/-- The lines up to the first echo of the sentinel, and that echo. -/
def throughSentinel (sentinel : Text) : List Text → List Text
  | [] => []
  | line :: ls =>
    if echoesSentinel sentinel line then [line] else line :: throughSentinel sentinel ls

section Ends

variable {cacheRoot sentinel : Text}

/-- **A walk goes step by step over the lines before the sentinel.** -/
theorem walk_eq_foldl (s : State) (ls : List Text) :
    walk cacheRoot sentinel s ls =
      ((beforeSentinel sentinel ls).foldl (step cacheRoot) s, ls.any (echoesSentinel sentinel)) := by
  induction ls generalizing s with
  | nil => rfl
  | cons line ls ih =>
    rw [walk, beforeSentinel, List.takeWhile_cons, List.any_cons]
    cases h : echoesSentinel sentinel line with
    | true => rfl
    | false => exact ih _

/-- What comes behind the echo of the sentinel makes no difference. -/
theorem walk_throughSentinel (s : State) (ls : List Text) :
    walk cacheRoot sentinel s (throughSentinel sentinel ls) = walk cacheRoot sentinel s ls := by
  induction ls generalizing s with
  | nil => rfl
  | cons line ls ih =>
    rw [throughSentinel, walk]
    cases h : echoesSentinel sentinel line with
    | true => rw [if_pos rfl, if_pos rfl, walk, h, if_pos rfl]
    | false =>
      rw [if_neg (by decide), if_neg (by decide), walk, h, if_neg (by decide)]
      exact ih _

end Ends

/-- The walk over a whole log, as far as the sentinel. -/
def afterLog (raw : Text) (expected : List ExpectedLine) (sentinel : Text) (cache : CachePaths) :
    State :=
  (beforeSentinel sentinel (Echo.joinWrapped (Terminal.plain raw))).foldl
    (step cache.rootForCommands) (.initial expected)

/-- What is recovered from a log, by its lines before the sentinel. -/
theorem reconcile_eq (raw : Text) (expected : List ExpectedLine) (sentinel : Text)
    (returnCode : Int) (cache : CachePaths) :
    let s := afterLog raw expected sentinel cache
    let seen := (Echo.joinWrapped (Terminal.plain raw)).any (echoesSentinel sentinel)
    reconcile raw expected sentinel returnCode cache =
      { output := Text.unlines (trimBlankLines s.output.reverse)
        artifacts := s.artifacts.reverse
        matched := s.matched
        sentinelSeen := seen
        error := verdict returnCode sentinel s seen } := by
  unfold reconcile
  dsimp only
  rw [walk_eq_foldl, afterLog]

/-! ## One line -/

/-- A claim passes over silent lines and takes a line that is tied to the echo. -/
theorem exists_skipped {line : Text} {e : ExpectedLine} {quality : Echo.MatchQuality}
    {expected more : List ExpectedLine} (h : claim? line expected = some (e, quality, more)) :
    ∃ skipped, expected = skipped ++ e :: more ∧ (∀ x ∈ skipped, x.kind = .silent) ∧
      Echo.matchEcho line e.text = some quality := by
  induction expected with
  | nil => exact absurd h (by simp [claim?])
  | cons x expected ih =>
    rw [claim?] at h
    cases tied : Echo.matchEcho line x.text with
    | some quality' =>
      rw [tied] at h
      obtain ⟨rfl, rfl, rfl⟩ := by simpa using h
      exact ⟨[], rfl, fun _ m => absurd m List.not_mem_nil, tied⟩
    | none =>
      rw [tied] at h
      dsimp only at h
      split at h
      · rename_i silent
        obtain ⟨skipped, rfl, passed, found⟩ := ih h
        refine ⟨x :: skipped, rfl, ?_, found⟩
        intro y m
        rcases List.mem_cons.mp m with rfl | m
        · exact silent
        · exact passed y m
      · exact absurd h (by simp)

/-- Whether a line is a note about a graph in the cache directory, written or not found. -/
def reportsGraph (cacheRoot line : Text) : Bool :=
  (GraphNote.written? line).any (Text.startsWith cacheRoot) ||
    (GraphNote.notFound? line).any (Text.startsWith cacheRoot)

/-- What the walk makes of a line, and what it is after the line. -/
inductive Meets (cacheRoot : Text) (s : State) (line : Text) : State → Prop where
  /-- The line is an echo. An expected line claims it, and silent lines before that are passed
  over. -/
  | echo {skipped more : List ExpectedLine} {e : ExpectedLine} {quality : Echo.MatchQuality}
      (claimed : claim? line s.expected = some (e, quality, more))
      (expected : s.expected = skipped ++ e :: more) (silent : ∀ x ∈ skipped, x.kind = .silent)
      (tied : Echo.matchEcho line e.text = some quality) :
      Meets cacheRoot s line
        { s with
          expected := more
          matched := s.matched + 1
          error := if quality = .heuristic ∧ e.kind ≠ .block then
              s.error <|> some (.ambiguous e.text line)
            else s.error }
  /-- The line is a note about a graph. -/
  | note {artifacts : List Text} (unclaimed : claim? line s.expected = none)
      (reports : reportsGraph cacheRoot line = true) : Meets cacheRoot s line { s with artifacts }
  /-- No echo has come yet. -/
  | early (unclaimed : claim? line s.expected = none)
      (reportsNot : reportsGraph cacheRoot line = false) (unstarted : s.matched = 0) :
      Meets cacheRoot s line s
  /-- The line is output. -/
  | output (unclaimed : claim? line s.expected = none)
      (reportsNot : reportsGraph cacheRoot line = false) (started : 0 < s.matched) :
      Meets cacheRoot s line { s with output := line :: s.output }

/-- **What a step does.** -/
theorem step_meets (cacheRoot : Text) (s : State) (line : Text) :
    Meets cacheRoot s line (step cacheRoot s line) := by
  rw [step]
  cases claimed : claim? line s.expected with
  | some found =>
    obtain ⟨e, quality, more⟩ := found
    obtain ⟨skipped, expected, silent, tied⟩ := exists_skipped claimed
    exact .echo claimed expected silent tied
  | none =>
    dsimp only
    rw [keep]
    cases written : (GraphNote.written? line).filter (Text.startsWith cacheRoot) with
    | some path =>
      have reports : reportsGraph cacheRoot line = true := by
        obtain ⟨found, inside⟩ := Option.filter_eq_some_iff.mp written
        rw [reportsGraph, found, Option.any_some, inside, Bool.true_or]
      exact .note claimed reports
    | none =>
      have unwritten : (GraphNote.written? line).any (Text.startsWith cacheRoot) = false := by
        rw [Option.filter_eq_none_iff] at written
        cases found : GraphNote.written? line with
        | none => rfl
        | some path => simpa using written path found
      dsimp only
      split
      · rename_i missing
        exact .note claimed (by rw [reportsGraph, missing, Bool.or_true])
      · rename_i notMissing
        have reportsNot : reportsGraph cacheRoot line = false := by
          rw [reportsGraph, unwritten, Bool.eq_false_iff.mpr notMissing]
          rfl
        split
        · rename_i unstarted
          exact .early claimed reportsNot unstarted
        · rename_i started
          exact .output claimed reportsNot (Nat.pos_of_ne_zero started)

section Errors

variable {cacheRoot : Text} {s : State}

/-- An error stays, whatever line comes next. -/
theorem error_step {x : ReconcileError} (h : s.error = some x) (line : Text) :
    (step cacheRoot s line).error = some x := by
  have met := step_meets cacheRoot s line
  generalize step cacheRoot s line = s' at met ⊢
  cases met with
  | echo =>
    dsimp only
    rw [h]
    split <;> rfl
  | note => exact h
  | early => exact h
  | output => exact h

theorem error_foldl {x : ReconcileError} (h : s.error = some x) (ls : List Text) :
    (ls.foldl (step cacheRoot) s).error = some x := by
  induction ls generalizing s with
  | nil => exact h
  | cons line ls ih => exact ih (error_step h line)

/-- A walk without an error began without one. -/
theorem error_of_foldl {ls : List Text} (h : (ls.foldl (step cacheRoot) s).error = none) :
    s.error = none := by
  cases earlier : s.error with
  | none => rfl
  | some x => exact absurd (h.symm.trans (error_foldl earlier ls)) (by simp)

end Errors

end DoRunner.Reconcile
