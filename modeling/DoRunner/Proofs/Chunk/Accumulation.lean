import DoRunner.Completeness
import DoRunner.Proofs.Text.Lines
import Mathlib.Data.List.Induction

/-!
# Collecting lines

Lines that come in one by one are cut into buffers, each of them the shortest stretch of lines that
can be run (`run_collects`). Nothing is lost on the way and nothing changes its place: what is
pending are the lines since the last buffer, joined by line feeds.

One thing has to be known of the verdicts for that. A line feed is put before a line only if
something is pending, so an empty text must not wait for anything (`incomplete_nil`). Otherwise an
empty line could be pending and then be lost.
-/

namespace DoRunner

theorem Text.unlines_concat {lines : List Text} (nonempty : lines ≠ []) (line : Text) :
    unlines (lines ++ [line]) = unlines lines ++ '\n' :: line := by
  induction lines with
  | nil => exact absurd rfl nonempty
  | cons first more ih =>
    cases more with
    | nil => rfl
    | cons next more =>
      show first ++ '\n' :: unlines (next :: more ++ [line]) = _
      rw [ih (List.cons_ne_nil next more), unlines, List.append_assoc]
      rfl

/-- **Nothing is missing behind nothing,** whatever ends a statement. -/
theorem incomplete_nil (mode : DelimiterMode) : (checkComplete [] mode).incomplete = none := by
  have analysis : (Analysis.ofCode [] mode).incomplete? = none := by
    have clean : (Analysis.ofCode [] mode).comments
        = { marks := [], endState := .clean, finalMode := mode, explicitSince := none } := by
      simp [Analysis.ofCode, normalizeNewlines, scanComments, Comments.run, Comments.State.initial,
        ModeStack.atRoot, Comments.endOf]
    have blocks : (Analysis.ofCode [] mode).blocks.openBlocks = 0 := by
      simp [Analysis.ofCode, normalizeNewlines, scanComments, Comments.run, Comments.State.initial,
        CommentScan.statementText, scanBlocks, Blocks.run, Blocks.State.initial, ModeStack.atRoot,
        ModeStack.openBlocks]
    simp [Analysis.incomplete?, blocks, clean, Analysis.unterminatedTail,
      Analysis.afterLastTerminator, Analysis.dropBytes, Text.blank]
  unfold checkComplete
  split
  · rfl
  · exact analysis

namespace Accumulator

/-! ## Histories -/

/-- What is done with an accumulator. -/
inductive Call where
  /-- A line comes in. -/
  | push (line : Text)
  /-- What is pending is dropped. -/
  | clear
deriving DecidableEq, Repr

/-- What has happened to an accumulator. -/
inductive Event where
  /-- A line came in, and this became of it. -/
  | pushed (line : Text) (became : Accumulated)
  /-- What was pending was dropped. -/
  | cleared
deriving DecidableEq, Repr

/-- The call that the event was. -/
def Event.call : Event → Call
  | .pushed line _ => .push line
  | .cleared => .clear

/-- One call: what happens, and the accumulator after it. -/
def call (a : Accumulator) : Call → Event × Accumulator
  | .push line => (.pushed line (a.pushLine line).1, (a.pushLine line).2)
  | .clear => (.cleared, a.clear)

/-- All calls on a new accumulator: what has happened, and the accumulator after it. -/
def run (mode : DelimiterMode) (calls : List Call) : List Event × Accumulator :=
  calls.foldl (fun (events, a) c => (events ++ [(a.call c).1], (a.call c).2)) ([], initial mode)

/-- The line without the carriage returns and line feeds that end it. -/
def chomped (line : Text) : Text := Text.trimEndWhile (fun c => c == '\r' || c == '\n') line

/-- The lines that came in since a buffer was last completed or dropped, each without its end. -/
def collected (events : List Event) : List Text :=
  events.foldl
    (fun lines event => match event with
      | .pushed line (.needMore _) => lines ++ [chomped line]
      | .pushed _ (.complete _ _) => []
      | .cleared => [])
    []

/-- What ends a statement then: what it was after the last buffer that was completed. -/
def modeAfter (mode : DelimiterMode) (events : List Event) : DelimiterMode :=
  events.foldl
    (fun mode event => match event with
      | .pushed _ (.complete _ nextMode) => nextMode
      | _ => mode)
    mode

/-- What becomes of the last of these lines: with the others it is a buffer, or it waits. -/
def verdictOn (lines : List Text) (mode : DelimiterMode) : Accumulated :=
  match (checkComplete (Text.unlines lines) mode).incomplete with
  | none => .complete (Text.unlines lines) (checkComplete (Text.unlines lines) mode).nextMode
  | some reason => .needMore reason

/-- The lines are the shortest that can be run: none of their beginnings can. -/
def Shortest (lines : List Text) (mode : DelimiterMode) : Prop :=
  (checkComplete (Text.unlines lines) mode).incomplete = none ∧
    ∀ front, front <+: lines → front ≠ [] →
      (checkComplete (Text.unlines front) mode).incomplete = none → front = lines

theorem run_concat (mode : DelimiterMode) (calls : List Call) (c : Call) :
    run mode (calls ++ [c]) = ((run mode calls).1 ++ [((run mode calls).2.call c).1],
      ((run mode calls).2.call c).2) := by
  rw [run, List.foldl_append]
  rfl

/-- Every call is told of, in their order. -/
theorem map_call_run (mode : DelimiterMode) (calls : List Call) :
    (run mode calls).1.map Event.call = calls := by
  induction calls using List.reverseRecOn with
  | nil => rfl
  | append_singleton calls c ih =>
    rw [run_concat, List.map_append, ih]
    cases c <;> rfl

theorem collected_concat (events : List Event) (event : Event) :
    collected (events ++ [event]) = match event with
      | .pushed line (.needMore _) => collected events ++ [chomped line]
      | .pushed _ (.complete _ _) => []
      | .cleared => [] := by
  rw [collected, List.foldl_append]
  rfl

theorem modeAfter_concat (mode : DelimiterMode) (events : List Event) (event : Event) :
    modeAfter mode (events ++ [event]) = match event with
      | .pushed _ (.complete _ nextMode) => nextMode
      | _ => modeAfter mode events := by
  rw [modeAfter, List.foldl_append]
  rfl

/-! ## What is pending -/

/-- What is true of an accumulator after what has happened to it. -/
structure Collects (mode : DelimiterMode) (events : List Event) (a : Accumulator) : Prop where
  /-- The lines are pending, joined by line feeds. -/
  pending : a.pending = Text.unlines (collected events)
  /-- Verdicts are made in the mode after the last buffer. -/
  current : a.mode = modeAfter mode events
  /-- No beginning of the lines can be run. -/
  waits : ∀ front, front <+: collected events → front ≠ [] →
    (checkComplete (Text.unlines front) a.mode).incomplete ≠ none

/-- A verdict that more is needed is none that the lines can be run. -/
theorem waits_of_needMore {lines : List Text} {mode : DelimiterMode} {reason : IncompleteReason}
    (verdict : verdictOn lines mode = .needMore reason) :
    (checkComplete (Text.unlines lines) mode).incomplete ≠ none := by
  intro complete
  rw [verdictOn, complete] at verdict
  exact absurd verdict (by simp)

/-- A verdict that a buffer is complete hands over the lines and their mode. -/
theorem complete_of_verdictOn {lines : List Text} {mode nextMode : DelimiterMode} {code : Text}
    (verdict : verdictOn lines mode = .complete code nextMode) :
    (checkComplete (Text.unlines lines) mode).incomplete = none := by
  by_contra incomplete
  obtain ⟨reason, waits⟩ := Option.ne_none_iff_exists'.mp incomplete
  rw [verdictOn, waits] at verdict
  exact absurd verdict (by simp)

section Push

variable {mode : DelimiterMode} {events : List Event} {a : Accumulator}
  (h : Collects mode events a)

include h

/-- **Lines that wait are not nothing.** -/
theorem Collects.ne_nil (waiting : collected events ≠ []) : a.pending ≠ [] := by
  intro empty
  apply h.waits (collected events) List.prefix_rfl waiting
  rw [← h.pending, empty]
  exact incomplete_nil a.mode

/-- A line is joined to those that are pending. -/
theorem Collects.joined (line : Text) :
    a.joined line = Text.unlines (collected events ++ [chomped line]) := by
  by_cases none : collected events = []
  · have empty : a.pending = [] := by rw [h.pending, none, Text.unlines]
    rw [none, List.nil_append, Text.unlines, Accumulator.joined, if_pos empty]
    rfl
  · rw [Text.unlines_concat none, ← h.pending, Accumulator.joined, if_neg (h.ne_nil none)]
    rfl

/-- **What becomes of a line** is decided by it and the lines that wait. -/
theorem Collects.pushLine (line : Text) :
    a.pushLine line = (verdictOn (collected events ++ [chomped line]) a.mode,
      match verdictOn (collected events ++ [chomped line]) a.mode with
      | .complete _ nextMode => ⟨[], nextMode⟩
      | .needMore _ => ⟨Text.unlines (collected events ++ [chomped line]), a.mode⟩) := by
  unfold Accumulator.pushLine verdictOn
  dsimp only
  rw [h.joined line]
  cases (checkComplete (Text.unlines (collected events ++ [chomped line])) a.mode).incomplete <;> rfl

/-- **Every call keeps to the lines.** -/
theorem Collects.call (c : Call) :
    Collects mode (events ++ [(a.call c).1]) (a.call c).2 := by
  cases c with
  | clear =>
    refine ⟨?_, ?_, ?_⟩
    · rw [collected_concat]
      rfl
    · rw [modeAfter_concat]
      exact h.current
    · rw [collected_concat]
      intro front begins nonempty
      exact absurd (List.prefix_nil.mp begins) nonempty
  | push line =>
    have pushed := h.pushLine line
    cases verdict : verdictOn (collected events ++ [chomped line]) a.mode with
    | complete code nextMode =>
      rw [verdict] at pushed
      rw [Accumulator.call, pushed]
      refine ⟨?_, ?_, ?_⟩
      · rw [collected_concat]
        rfl
      · rw [modeAfter_concat]
      · rw [collected_concat]
        intro front begins nonempty
        exact absurd (List.prefix_nil.mp begins) nonempty
    | needMore reason =>
      rw [verdict] at pushed
      rw [Accumulator.call, pushed]
      refine ⟨?_, ?_, ?_⟩
      · rw [collected_concat]
      · rw [modeAfter_concat]
        exact h.current
      · rw [collected_concat]
        intro front begins nonempty
        rcases List.prefix_concat_iff.mp begins with rfl | earlier
        · exact waits_of_needMore verdict
        · exact h.waits front earlier nonempty

end Push

theorem run_keeps (mode : DelimiterMode) (calls : List Call) :
    Collects mode (run mode calls).1 (run mode calls).2 := by
  induction calls using List.reverseRecOn with
  | nil =>
    refine ⟨rfl, rfl, ?_⟩
    intro front begins nonempty
    exact absurd (List.prefix_nil.mp begins) nonempty
  | append_singleton calls c ih =>
    rw [run_concat]
    exact ih.call c

/-- A line that is last in a history was decided on by the lines before it. -/
theorem Collects.shortest {mode : DelimiterMode} {events : List Event} {a : Accumulator}
    (h : Collects mode events a) {line code : Text} {nextMode : DelimiterMode}
    (verdict : verdictOn (collected events ++ [chomped line]) a.mode = .complete code nextMode) :
    Shortest (collected events ++ [chomped line]) a.mode := by
  refine ⟨complete_of_verdictOn verdict, ?_⟩
  intro front begins nonempty complete
  rcases List.prefix_concat_iff.mp begins with whole | earlier
  · exact whole
  · exact absurd complete (h.waits front earlier nonempty)

/-- **Every line has been decided on** by the lines that waited when it came in, in the mode after
the buffer before them. -/
theorem became_of_mem_run {mode : DelimiterMode} {calls : List Call} {before after : List Event}
    {line : Text} {became : Accumulated}
    (split : (run mode calls).1 = before ++ .pushed line became :: after) :
    became = verdictOn (collected before ++ [chomped line]) (modeAfter mode before) ∧
    ∀ code nextMode, became = .complete code nextMode →
      Shortest (collected before ++ [chomped line]) (modeAfter mode before) := by
  induction calls using List.reverseRecOn generalizing after with
  | nil =>
    have none : ([] : List Event) = before ++ .pushed line became :: after := split
    exact absurd none (by simp)
  | append_singleton calls c ih =>
    rw [run_concat] at split
    dsimp only at split
    rcases List.eq_nil_or_concat after with rfl | ⟨earlier, last, rfl⟩
    · -- the line is what the last call was about
      obtain ⟨rfl, lastly⟩ := List.append_inj' split rfl
      have kept := run_keeps mode calls
      cases c with
      | clear => exact absurd (List.cons.inj lastly).1 (by simp [Accumulator.call])
      | push pushed =>
        obtain ⟨rfl, rfl⟩ := Event.pushed.inj (List.cons.inj lastly).1
        rw [kept.pushLine, ← kept.current]
        exact ⟨rfl, fun code nextMode verdict => kept.shortest verdict⟩
    · have front : (run mode calls).1 = before ++ .pushed line became :: earlier := by
        rw [List.concat_eq_append, ← List.cons_append, ← List.append_assoc] at split
        exact (List.append_inj' split rfl).1
      exact ih front

/-- **An accumulator neither loses nor reorders its lines.** After any calls, of which the history
tells one by one, pending are the lines since a buffer was last completed or dropped, joined by line
feeds, and what ends a statement is what did so after the last completed buffer. A line that does not
complete a buffer leaves something pending. Every line got the verdict on the lines that waited with
it, and the buffers are the shortest stretches of lines that can be run. -/
theorem run_collects (mode : DelimiterMode) (calls : List Call) :
    let events := (run mode calls).1
    let a := (run mode calls).2
    events.map Event.call = calls ∧
    a = ⟨Text.unlines (collected events), modeAfter mode events⟩ ∧
    (∀ line reason, events.getLast? = some (.pushed line (.needMore reason)) → a.pending ≠ []) ∧
    ∀ before line became after, events = before ++ .pushed line became :: after →
      became = verdictOn (collected before ++ [chomped line]) (modeAfter mode before) ∧
      ∀ code nextMode, became = .complete code nextMode →
        Shortest (collected before ++ [chomped line]) (modeAfter mode before) := by
  have kept := run_keeps mode calls
  refine ⟨map_call_run mode calls, ?_, ?_, fun before line became after split =>
    became_of_mem_run split⟩
  · rw [← kept.pending, ← kept.current]
  · intro line reason last
    apply kept.ne_nil
    obtain ⟨front, whole⟩ := List.getLast?_eq_some_iff.mp last
    rw [whole, collected_concat]
    simp

/-- The first buffer changes what ends the second, which takes three lines then. -/
theorem run_collects_directive :
    let calls : List Call := [.push "#delimit ;".toList, .push "sum x\r\n".toList, .push [],
      .push ", detail;".toList]
    (run .newline calls).1.getLast?
        = some (.pushed ", detail;".toList (.complete "sum x\n\n, detail;".toList .semicolon)) ∧
      Shortest ["sum x".toList, [], ", detail;".toList] .semicolon := by
  have events : (run .newline [.push "#delimit ;".toList, .push "sum x\r\n".toList, .push [],
        .push ", detail;".toList]).1
      = [.pushed "#delimit ;".toList (.complete "#delimit ;".toList .semicolon),
          .pushed "sum x\r\n".toList (.needMore .missingTerminator),
          .pushed [] (.needMore .missingTerminator)]
        ++ [.pushed ", detail;".toList (.complete "sum x\n\n, detail;".toList .semicolon)] := by
    decide +kernel
  obtain ⟨-, -, -, decided⟩ := run_collects .newline [.push "#delimit ;".toList,
    .push "sum x\r\n".toList, .push [], .push ", detail;".toList]
  refine ⟨?_, (decided _ _ _ [] events).2 _ _ rfl⟩
  rw [events]
  rfl

end Accumulator

end DoRunner
