import DoRunner.Proofs.Echo.Account

/-!
# What becomes of the output

Reconciliation takes the echoes out of a log and leaves the output as it was. Once the first echo
has been claimed, each line up to the sentinel is kept in its place, unless it is an echo or a note
about a graph of the session; afterwards blank lines at either end are left out. So of the lines
that have something on them and no marker of an echo, all are kept but the notes, and nothing is
there that was not printed (`reconcile_conserves`).

`Keeps` says this of the lines kept out of a list. It holds line by line (`keeps_step`), and two
lists of which it holds can be put together, so it holds of a walk.
-/

namespace DoRunner

/-- The lines of what was recovered. -/
def Reconciled.outputLines (result : Reconciled) : List Text :=
  if result.output = [] then [] else Text.lines result.output

namespace Reconcile

/-- Whether a line has something on it, and no marker of an echo. -/
def unmarked (line : Text) : Bool := (Echo.echoContent? line).isNone && !Text.blank line

/-- The lines behind the first that an expected line claims, up to the sentinel. -/
def betweenEchoes (expected : List ExpectedLine) (sentinel : Text) (ls : List Text) : List Text :=
  ((beforeSentinel sentinel ls).dropWhile fun line => (claim? line expected).isNone).tail

/-! ## Keeping lines -/

/-- Some lines are kept, in order; and of those that are unmarked, all but the notes about graphs. -/
structure Keeps (cacheRoot : Text) (ls kept : List Text) : Prop where
  /-- Nothing is added or moved. -/
  sublist : kept.Sublist ls
  /-- Nothing unmarked is lost but the notes. -/
  unmarked : kept.filter unmarked
    = ls.filter fun line => unmarked line && !reportsGraph cacheRoot line

section Keeping

variable {cacheRoot : Text}

theorem Keeps.nil : Keeps cacheRoot [] [] := ⟨.refl [], rfl⟩

theorem Keeps.append {ls ms kept more : List Text} (h : Keeps cacheRoot ls kept)
    (h' : Keeps cacheRoot ms more) : Keeps cacheRoot (ls ++ ms) (kept ++ more) where
  sublist := h.sublist.append h'.sublist
  unmarked := by rw [List.filter_append, List.filter_append, h.unmarked, h'.unmarked]

/-- An echo or a note is left out. -/
theorem Keeps.skip {line : Text}
    (h : (Reconcile.unmarked line && !reportsGraph cacheRoot line) = false) :
    Keeps cacheRoot [line] [] where
  sublist := List.nil_sublist _
  unmarked := by rw [List.filter_cons, h]; rfl

/-- Any line that is not a note may be kept. -/
theorem Keeps.take {line : Text} (h : reportsGraph cacheRoot line = false) :
    Keeps cacheRoot [line] [line] where
  sublist := .refl _
  unmarked := by rw [List.filter_cons, List.filter_cons, h, Bool.not_false, Bool.and_true]; rfl

/-- What an expected line claims carries a marker. -/
theorem unmarked_of_tied {line submitted : Text} {quality : Echo.MatchQuality}
    (h : Echo.matchEcho line submitted = some quality) : unmarked line = false := by
  cases content : Echo.echoContent? line with
  | none => exact absurd h (by rw [Echo.matchEcho_of_echoContent? content]; simp)
  | some _ => rw [unmarked, content]; rfl

/-! ### A walk -/

variable (cacheRoot)

/-- Behind the first echo, a step keeps its line, unless it is an echo or a note. -/
theorem keeps_step {s : State} (started : 0 < s.matched) (line : Text) :
    0 < (step cacheRoot s line).matched ∧ ∃ kept, Keeps cacheRoot [line] kept ∧
      (step cacheRoot s line).output = kept.reverse ++ s.output := by
  have met := step_meets cacheRoot s line
  generalize step cacheRoot s line = s' at met ⊢
  cases met with
  | echo _ _ _ tied =>
    exact ⟨Nat.succ_pos _, [], .skip (by rw [unmarked_of_tied tied, Bool.false_and]), rfl⟩
  | note _ reports =>
    exact ⟨started, [], .skip (by rw [reports, Bool.not_true, Bool.and_false]), rfl⟩
  | early _ _ unstarted => exact absurd unstarted (Nat.ne_of_gt started)
  | output _ reportsNot => exact ⟨started, [line], .take reportsNot, rfl⟩

theorem keeps_foldl {s : State} (started : 0 < s.matched) (ls : List Text) :
    ∃ kept, Keeps cacheRoot ls kept ∧
      (ls.foldl (step cacheRoot) s).output = kept.reverse ++ s.output := by
  induction ls generalizing s with
  | nil => exact ⟨[], .nil, rfl⟩
  | cons line ls ih =>
    obtain ⟨started', here, keepsHere, outputHere⟩ := keeps_step cacheRoot started line
    obtain ⟨later, keepsLater, outputLater⟩ := ih started'
    refine ⟨here ++ later, keepsHere.append keepsLater, ?_⟩
    rw [List.foldl_cons, outputLater, outputHere, List.reverse_append, List.append_assoc]

/-- Before the first echo, a line is claimed or changes nothing that matters. Nothing is kept. -/
theorem unstarted_step {s : State} (unstarted : s.matched = 0) (line : Text) :
    (step cacheRoot s line).output = s.output ∧
    (if (claim? line s.expected).isNone then
      (step cacheRoot s line).matched = 0 ∧ (step cacheRoot s line).expected = s.expected
    else 0 < (step cacheRoot s line).matched) := by
  have met := step_meets cacheRoot s line
  generalize step cacheRoot s line = s' at met ⊢
  cases met with
  | echo claimed =>
    rw [claimed]
    exact ⟨rfl, Nat.succ_pos _⟩
  | note unclaimed =>
    rw [unclaimed]
    exact ⟨rfl, unstarted, rfl⟩
  | early unclaimed =>
    rw [unclaimed]
    exact ⟨rfl, unstarted, rfl⟩
  | output _ _ started => exact absurd unstarted (Nat.ne_of_gt started)

/-- From the first line that is claimed, the walk keeps what is unmarked. -/
theorem keeps_foldl_unstarted {s : State} (unstarted : s.matched = 0) (ls : List Text) :
    ∃ kept, Keeps cacheRoot (ls.dropWhile fun line => (claim? line s.expected).isNone).tail kept ∧
      (ls.foldl (step cacheRoot) s).output = kept.reverse ++ s.output := by
  induction ls generalizing s with
  | nil => exact ⟨[], .nil, rfl⟩
  | cons line ls ih =>
    obtain ⟨same, next⟩ := unstarted_step cacheRoot unstarted line
    rw [List.foldl_cons, List.dropWhile_cons, ← same]
    split at next
    · rename_i unclaimed
      rw [if_pos unclaimed, ← next.2]
      exact ih next.1
    · rename_i claimed
      rw [if_neg claimed]
      exact keeps_foldl cacheRoot next ls

end Keeping

/-! ## Blank lines at the ends -/

/-- Members that do not count can be dropped from the front of a list. -/
theorem filter_dropWhile {α : Type} {p q : α → Bool} (h : ∀ x, p x = true → q x = false)
    (l : List α) : (l.dropWhile p).filter q = l.filter q := by
  induction l with
  | nil => rfl
  | cons x l ih =>
    rw [List.dropWhile_cons]
    cases hp : p x with
    | true => rw [if_pos rfl, ih, List.filter_cons, h x hp, if_neg (by decide)]
    | false => rw [if_neg (by decide)]

theorem trimBlankLines_sublist (ls : List Text) : (trimBlankLines ls).Sublist ls := by
  have inner : ((ls.dropWhile Text.blank).reverse.dropWhile Text.blank).Sublist
      (ls.dropWhile Text.blank).reverse := List.dropWhile_sublist _
  exact (List.reverse_sublist.mp (by rwa [trimBlankLines, List.reverse_reverse])).trans
    (List.dropWhile_sublist _)

theorem filter_trimBlankLines (ls : List Text) :
    (trimBlankLines ls).filter unmarked = ls.filter unmarked := by
  have inked : ∀ line, Text.blank line = true → unmarked line = false := by
    intro line blank
    rw [unmarked, blank, Bool.not_true, Bool.and_false]
  rw [trimBlankLines, List.filter_reverse, filter_dropWhile inked, List.filter_reverse,
    List.reverse_reverse, filter_dropWhile inked]

theorem Keeps.trimmed {cacheRoot : Text} {ls kept : List Text} (h : Keeps cacheRoot ls kept) :
    Keeps cacheRoot ls (trimBlankLines kept) where
  sublist := (trimBlankLines_sublist kept).trans h.sublist
  unmarked := (filter_trimBlankLines kept).trans h.unmarked

/-- What is left does not end in a blank line. -/
theorem blank_getLast_trimBlankLines {ls : List Text} {line : Text}
    (h : (trimBlankLines ls).getLast? = some line) : Text.blank line = false := by
  rw [trimBlankLines, List.getLast?_reverse] at h
  simpa [h] using List.head?_dropWhile_not Text.blank (ls.dropWhile Text.blank).reverse

/-- The lines recovered are those that were put together. -/
theorem outputLines_of_output {result : Reconciled} {ls : List Text}
    (shown : result.output = Text.unlines (trimBlankLines ls))
    (single : ∀ line ∈ ls, '\n' ∉ line) : result.outputLines = trimBlankLines ls := by
  rw [Reconciled.outputLines, shown]
  cases trimmed : trimBlankLines ls with
  | nil => rfl
  | cons first more =>
    have whole : Text.lines (Text.unlines (first :: more)) = first :: more := by
      refine Text.lines_unlines (List.cons_ne_nil _ _) (fun line m => single line ?_)
      exact (trimBlankLines_sublist ls).subset (trimmed ▸ m)
    rw [if_neg, whole]
    intro empty
    -- only a single blank line leaves no text, and that is trimmed
    have blank : first :: more = [[]] := by rw [← whole, empty]; rfl
    have last : (trimBlankLines ls).getLast? = some [] := by rw [trimmed, blank]; rfl
    exact absurd (blank_getLast_trimBlankLines last) (by decide)

/-! ## A whole log -/

/-- **Reconciliation neither loses nor invents output.** The lines recovered stood, in their order,
between the first echo claimed and that of the sentinel. Of the unmarked lines there they are all
but the notes about graphs. What comes behind the echo of the sentinel makes no difference at all. -/
theorem reconcile_conserves (raw : Text) (expected : List ExpectedLine) (sentinel : Text)
    (returnCode : Int) (cache : CachePaths) :
    let lines := Echo.joinWrapped (Terminal.plain raw)
    let between := betweenEchoes expected sentinel lines
    let result := reconcile raw expected sentinel returnCode cache
    result.outputLines.Sublist between ∧
    result.outputLines.filter unmarked
      = between.filter (fun line => unmarked line && !reportsGraph cache.rootForCommands line) ∧
    ∀ other, throughSentinel sentinel (Echo.joinWrapped (Terminal.plain other))
        = throughSentinel sentinel lines →
      reconcile other expected sentinel returnCode cache = result := by
  intro lines between result
  obtain ⟨kept, keeps, output⟩ := keeps_foldl_unstarted cache.rootForCommands
    (s := .initial expected) rfl (beforeSentinel sentinel lines)
  have single : ∀ line ∈ kept, '\n' ∉ line := by
    intro line m
    have within : line ∈ beforeSentinel sentinel lines :=
      (List.dropWhile_sublist _).subset ((List.tail_sublist _).subset (keeps.sublist.subset m))
    exact Echo.notMem_lf_of_mem_joinWrapped ((List.takeWhile_sublist _).subset within)
  have shown : result.output = Text.unlines (trimBlankLines kept) := by
    rw [show result = _ from reconcile_eq raw expected sentinel returnCode cache]
    dsimp only
    rw [afterLog, output]
    dsimp only [State.initial]
    rw [List.append_nil, List.reverse_reverse]
  rw [outputLines_of_output shown single]
  refine ⟨keeps.trimmed.sublist, keeps.trimmed.unmarked, ?_⟩
  intro other same
  have walked : walk cache.rootForCommands sentinel (.initial expected)
      (Echo.joinWrapped (Terminal.plain other))
        = walk cache.rootForCommands sentinel (.initial expected) lines := by
    rw [← walk_throughSentinel, same, walk_throughSentinel]
  show reconcile other expected sentinel returnCode cache
    = reconcile raw expected sentinel returnCode cache
  unfold reconcile
  dsimp only
  rw [walked]

/-- A log with a line before the first echo, a note about a graph, blank lines and, behind the
sentinel, what was left over. With something else left over, the same is recovered. -/
theorem reconcile_conserves_leftOver :
    let expected : List ExpectedLine := [⟨"di 1".toList, .statement⟩]
    let cache : CachePaths := ⟨"c".toList⟩
    let log := "note:\n. di 1\n\n1\n(file c/graph0.svg written in SVG format)\n\n2\n\n. * done\n"
    let raw := (log ++ "3").toList
    let other := (log ++ ". di 1\n4\n. * done").toList
    let between := ["", "1", "(file c/graph0.svg written in SVG format)", "", "2", ""].map String.toList
    let result := reconcile raw expected "* done".toList 0 cache
    result.outputLines = ["1", "", "2"].map String.toList ∧
    result.outputLines.Sublist between ∧
    result.outputLines.filter unmarked
      = between.filter (fun line => unmarked line && !reportsGraph "c".toList line) ∧
    (throughSentinel "* done".toList (Echo.joinWrapped (Terminal.plain other))
      = throughSentinel "* done".toList (Echo.joinWrapped (Terminal.plain raw)) ∧
      Terminal.plain other ≠ Terminal.plain raw) ∧
    reconcile other expected "* done".toList 0 cache = result := by
  intro expected cache log raw other between result
  have facts : result.outputLines = ["1", "", "2"].map String.toList ∧
      betweenEchoes expected "* done".toList (Echo.joinWrapped (Terminal.plain raw)) = between ∧
      throughSentinel "* done".toList (Echo.joinWrapped (Terminal.plain other))
        = throughSentinel "* done".toList (Echo.joinWrapped (Terminal.plain raw)) ∧
      Terminal.plain other ≠ Terminal.plain raw := by
    decide +kernel
  obtain ⟨shown, within, same, differ⟩ := facts
  obtain ⟨sublist, unmarked, sameResult⟩ :=
    reconcile_conserves raw expected "* done".toList 0 cache
  rw [within] at sublist unmarked
  exact ⟨shown, sublist, unmarked, ⟨same, differ⟩, sameResult other same⟩

end Reconcile

end DoRunner
