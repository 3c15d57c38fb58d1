import DoRunner.Proofs.Chunk.BareLines
import DoRunner.Proofs.Session.Effects

/-!
# Asking for help

A question mark and a topic stand for a `help` command. The verdict on such a buffer does not look at
that command: it is always that the buffer is complete and leaves the delimiter mode as it is. But
what is executed is the command, read in the mode the session is in. The two agree just where the
command itself is complete and leaves the mode (`execute_help`). Under an explicit terminator that
takes a terminator at the end of the topic.
-/

namespace DoRunner

theorem helpCommand?_eq_some {code line : Text} (h : helpCommand? code = some line) :
    ∃ topic, line = "help ".toList ++ topic ∧ '\n' ∉ topic := by
  unfold helpCommand? at h
  split at h
  · rename_i rest _
    dsimp only at h
    split at h
    · exact absurd h (by simp)
    · rename_i oneLine
      exact ⟨Text.trim rest, (Option.some.inj h).symm, fun m => oneLine (.inr m)⟩
  · exact absurd h (by simp)

/-- A help command starts as a statement does. -/
theorem ordinary_help (topic : Text) : Line.Ordinary ("help ".toList ++ topic) :=
  ⟨rfl, rfl, rfl, rfl⟩

/-- A help command is no shortcut itself. -/
theorem checkComplete_help (topic : Text) (mode : DelimiterMode) :
    checkComplete ("help ".toList ++ topic) mode =
      ⟨(Analysis.ofCode ("help ".toList ++ topic) mode).incomplete?,
        (Analysis.ofCode ("help ".toList ++ topic) mode).finalMode⟩ := by
  have noShortcut : MetaCommand.ofCode? ("help ".toList ++ topic) = none ∧
      helpCommand? ("help ".toList ++ topic) = none :=
    notShortcut_of_head (c := 'h') (by decide) (by decide) (by decide)
  exact checkComplete_of_noShortcut noShortcut.1 noShortcut.2 mode

namespace Session

variable {τ : Type} [Transport τ]

/-- What the verdict on a request for help promises: it is not refused as incomplete, and it leaves
the delimiter mode that was announced. -/
def HelpRuns (code : Text) (h : Host (Session τ)) : Prop :=
  (∀ reason, (execute code h).1.error ≠ some (.incomplete reason)) ∧
    (execute code h).2.guest.context.mode = (h.guest.isComplete code).nextMode

section Help

variable {code line : Text} (help : helpCommand? code = some line)

include help

omit [Transport τ] in
/-- The verdict never looks at the topic. -/
theorem isComplete_help (s : Session τ) : s.isComplete code = ⟨none, s.context.mode⟩ := by
  rw [isComplete, checkComplete, help, if_pos (.inr rfl)]

theorem ordinary_line : Line.Ordinary line := by
  obtain ⟨topic, command, -⟩ := helpCommand?_eq_some help
  exact command ▸ ordinary_help topic

theorem notMeta_of_help : MetaCommand.ofCode? code = none := by
  unfold helpCommand? at help
  unfold MetaCommand.ofCode?
  split at help
  · rename_i trimmed
    rw [trimmed]
    rfl
  · exact absurd help (by simp)

/-- **A request for help does what is announced just where its command is complete and leaves the
delimiter mode.** -/
theorem helpRuns_iff (h : Host (Session τ)) :
    HelpRuns code h ↔
      checkComplete line h.guest.context.mode = ⟨none, h.guest.context.mode⟩ := by
  obtain ⟨topic, command, -⟩ := helpCommand?_eq_some help
  have executed : executedCode code = line := by rw [executedCode, help, Option.getD_some]
  have refused := @error_execute _ _ code h (notMeta_of_help help)
  have carried := @execute_context _ _ code h (notMeta_of_help help)
  rw [executed] at refused carried
  rw [HelpRuns, isComplete_help help, command, checkComplete_help, ← command]
  constructor
  · rintro ⟨accepted, mode⟩
    have complete : (Analysis.ofCode line h.guest.context.mode).incomplete? = none := by
      refine Option.eq_none_iff_forall_ne_some.mpr fun reason found => ?_
      exact accepted reason ((refused reason).mpr found)
    rw [carried complete, contextAfter, executed] at mode
    rw [complete]
    exact congrArg (Completeness.mk none) mode
  · intro verdict
    obtain ⟨complete, mode⟩ := Completeness.mk.inj verdict
    refine ⟨fun reason error => ?_, ?_⟩
    · rw [(refused reason).mp error] at complete
      exact absurd complete (by simp)
    · rw [carried complete, contextAfter, executed]
      exact mode

/-- It is enough that the command is complete and leaves the mode. -/
theorem helpRuns_of_complete {h : Host (Session τ)} {mode : DelimiterMode}
    (current : h.guest.context.mode = mode)
    (complete : (Analysis.ofCode line mode).incomplete? = none ∧
      (Analysis.ofCode line mode).finalMode = mode) : HelpRuns code h := by
  obtain ⟨topic, command, -⟩ := helpCommand?_eq_some help
  rw [helpRuns_iff help, current, command, checkComplete_help, ← command, complete.1, complete.2]

/-- While lines end statements, a topic that opens nothing is run. -/
theorem helpRuns_newline {h : Host (Session τ)} (current : h.guest.context.mode = .newline)
    (plain : '\r' ∉ line) (bare : Text.Bare line) : HelpRuns code h :=
  helpRuns_of_complete help current (Analysis.complete_newline plain (ordinary_line help) bare)

/-- A topic without the terminator is refused. -/
theorem incomplete_of_noTerminator {h : Host (Session τ)} {terminator : Char}
    (current : h.guest.context.mode = .explicit terminator) (plain : '\r' ∉ line)
    (missing : terminator ∉ line) :
    ∃ reason, (execute code h).1.error = some (.incomplete reason) := by
  obtain ⟨topic, command, oneTopic⟩ := helpCommand?_eq_some help
  have oneLine : '\n' ∉ line := by
    rw [command, List.mem_append]
    exact not_or.mpr ⟨by decide, oneTopic⟩
  have ink : Text.blank line = false := by
    rw [command]
    rfl
  have noDirective : ∀ l ∈ Text.lines line, Line.directive? l ≠ some .newline := by
    rw [Text.lines_of_notMem oneLine]
    intro l m
    rw [List.mem_singleton.mp m, (ordinary_line help).noDirective]
    simp
  have incomplete := Analysis.incomplete_of_notMem plain noDirective ink missing
  obtain ⟨reason, found⟩ := Option.ne_none_iff_exists'.mp incomplete
  refine ⟨reason, (error_execute (notMeta_of_help help) reason).mpr ?_⟩
  rwa [executedCode, help, Option.getD_some, current]

/-- A topic that opens nothing and ends with the terminator is run. -/
theorem helpRuns_terminated {h : Host (Session τ)} {front : Text} {terminator : Char}
    (current : h.guest.context.mode = .explicit terminator) (plain : '\r' ∉ line)
    (bare : Text.Bare line) (ends : line = front ++ [terminator]) (first : terminator ∉ front) :
    HelpRuns code h := by
  -- what stands before the terminator starts with the command's own first letter
  obtain ⟨rest, starts⟩ : ∃ rest, front = 'h' :: rest := by
    obtain ⟨topic, command, -⟩ := helpCommand?_eq_some help
    rw [ends] at command
    cases front with
    | nil => exact absurd (List.cons.inj command).2 (by simp)
    | cons c rest =>
      obtain rfl : c = 'h' := (List.cons.inj command).1
      exact ⟨rest, rfl⟩
  have noBlock : Line.opensEndBlock front = false := by
    rw [starts]
    rfl
  have nonempty : front ≠ [] := by
    rw [starts]
    simp
  have ordinary := ordinary_line help
  refine helpRuns_of_complete help current ?_
  rw [ends] at plain ordinary bare ⊢
  exact Analysis.complete_explicit plain ordinary noBlock bare nonempty first

end Help

/-- **Which requests for help do what is announced.** It is those whose command is complete and leaves
the delimiter mode. While lines end statements, that is so of every topic that opens nothing. Under an
explicit terminator a topic without the terminator is always refused, and one that opens nothing and
ends with the terminator is run. -/
theorem execute_help {code line : Text} (help : helpCommand? code = some line)
    (h : Host (Session τ)) :
    let mode := h.guest.context.mode
    h.guest.isComplete code = ⟨none, mode⟩ ∧
    (HelpRuns code h ↔ checkComplete line mode = ⟨none, mode⟩) ∧
    (mode = .newline → '\r' ∉ line → Text.Bare line → HelpRuns code h) ∧
    (∀ terminator, mode = .explicit terminator → '\r' ∉ line → terminator ∉ line →
      ∃ reason, (execute code h).1.error = some (.incomplete reason)) ∧
    (∀ front terminator, mode = .explicit terminator → '\r' ∉ line → Text.Bare line →
      line = front ++ [terminator] → terminator ∉ front → HelpRuns code h) := by
  intro mode
  refine ⟨isComplete_help help h.guest, helpRuns_iff help h, ?_, ?_, ?_⟩
  · exact helpRuns_newline help
  · exact fun terminator => incomplete_of_noTerminator help
  · exact fun front terminator => helpRuns_terminated help

/-- A session over a program that has gone, which would run what is complete. -/
def overGone (mode : DelimiterMode) : Host (Session Gone) :=
  ⟨⟨⟨⟩, .default ⟨"c".toList⟩, ⟨mode, 0⟩, 80⟩, .empty⟩

/-- In either mode there are topics that are run. -/
theorem execute_help_regress :
    helpCommand? "?regress".toList = some "help regress".toList ∧
    helpCommand? "? regress;".toList = some "help regress;".toList ∧
    HelpRuns "?regress".toList (overGone .newline) ∧
    HelpRuns "? regress;".toList (overGone .semicolon) := by
  have plain : helpCommand? "?regress".toList = some "help regress".toList := by decide
  have ended : helpCommand? "? regress;".toList = some "help regress;".toList := by decide
  obtain ⟨-, -, newline, -⟩ := execute_help plain (overGone .newline)
  obtain ⟨-, -, -, -, explicit⟩ := execute_help ended (overGone .semicolon)
  exact ⟨plain, ended, newline rfl (by decide) (by decide),
    explicit "help regress".toList ';' rfl (by decide) (by decide) rfl (by decide)⟩

/-- The same topic without the terminator is refused although it was announced as complete; and a
carriage return in the topic may start a line that changes the mode. -/
theorem execute_help_refused :
    ((overGone .semicolon).guest.isComplete "?regress".toList = ⟨none, .semicolon⟩ ∧
      (execute "?regress".toList (overGone .semicolon)).1.error
        = some (.incomplete .missingTerminator)) ∧
    ((overGone .newline).guest.isComplete "?regress\r#delimit ;".toList = ⟨none, .newline⟩ ∧
      (execute "?regress\r#delimit ;".toList (overGone .newline)).2.guest.context.mode
        = .semicolon) := by
  decide +kernel

end Session

end DoRunner
