import Mathlib.Data.List.Forall2
import DoRunner.Echo.Reconcile
import DoRunner.Proofs.Echo.Prompts
import DoRunner.Transport.Automation

/-!
# Unwrapping undoes wrapping

A log has a width, and an echo that is longer is written on several rows: its first characters on
one of the log's width, the others on rows that begin with the sign of a continuation (`WrittenAs`).
Whether such a row is joined is decided by the line joined so far, which begins with the prompt from
its first row on, so all rows of an echo come together; and as no other line of a log begins with
the sign, nothing else does (`joinOnto_rows`).

What is read from a log is read from its joined lines. So it does not matter how wide the log is
(`joinWrapped_written`), except that a log without lines reads as one empty line.
-/

namespace DoRunner

namespace Text

theorem mem_unlines {ls : List Text} {c : Char} (h : c ∈ unlines ls) :
    c = '\n' ∨ ∃ line ∈ ls, c ∈ line := by
  induction ls with
  | nil => exact absurd h List.not_mem_nil
  | cons line more ih =>
    cases more with
    | nil => exact .inr ⟨line, List.mem_cons_self, h⟩
    | cons next more =>
      rw [unlines] at h
      rcases List.mem_append.mp h with h | h
      · exact .inr ⟨line, List.mem_cons_self, h⟩
      · rcases List.mem_cons.mp h with h | h
        · exact .inl h
        · rcases ih h with lf | ⟨other, m, inside⟩
          · exact .inl lf
          · exact .inr ⟨other, List.mem_cons_of_mem _ m, inside⟩

end Text

namespace Echo

/-! ## Rows -/

/-- A row that goes on with an echo. -/
def continued (piece : Text) : Text := '>' :: ' ' :: piece

/-- The rows on which a line is written in a log of a width. -/
inductive WrittenAs (width : Nat) : Text → List Text → Prop where
  /-- A line that is no echo, or fits, stands on one row. -/
  | whole {line : Text} (fits : ∀ l, line = prompted l → line.length ≤ width) :
      WrittenAs width line [line]
  /-- A longer echo fills one row, and others go on with it. -/
  | wrapped {l : Text} {pieces : List Text} (long : width < (prompted l).length)
      (rest : pieces.flatten = (prompted l).drop width)
      (short : ∀ piece ∈ pieces, piece.length ≤ width - 2) :
      WrittenAs width (prompted l) ((prompted l).take width :: pieces.map continued)

/-- A line as logs have it: an echo, or one that does not begin like a continuation; without
carriage returns and terminal sequences. -/
structure Logged (line : Text) : Prop where
  oneLine : '\n' ∉ line
  noReturn : '\r' ∉ line
  noEscape : '\x1b' ∉ line
  fresh : (∃ l, line = prompted l) ∨ ¬ Continues line

theorem Logged.not_continues {line : Text} (h : Logged line) : ¬ Continues line := by
  rcases h.fresh with ⟨l, rfl⟩ | fresh
  · exact not_continues_prompted l
  · exact fresh

/-- Every line stands on at least one row. -/
theorem WrittenAs.exists_first {width : Nat} {line : Text} {rows : List Text}
    (h : WrittenAs width line rows) : ∃ first others, rows = first :: others := by
  cases h with
  | whole => exact ⟨_, _, rfl⟩
  | wrapped => exact ⟨_, _, rfl⟩

/-- An echo that is cut behind the prompt still begins with it. -/
theorem take_prompted {width : Nat} (wide : 3 ≤ width) (l : Text) :
    (prompted l).take width = prompted (l.take (width - 2)) := by
  obtain ⟨n, rfl⟩ := Nat.exists_eq_add_of_le' (show 2 ≤ width by omega)
  rfl

theorem WrittenAs.not_continues {width : Nat} (wide : 3 ≤ width) {line first : Text}
    {others : List Text} (h : WrittenAs width line (first :: others)) (logged : Logged line) :
    ¬ Continues first := by
  cases h with
  | whole => exact logged.not_continues
  | wrapped =>
    rw [take_prompted wide]
    exact not_continues_prompted _

/-- The characters of the rows are those of the line and of the sign. -/
theorem WrittenAs.mem {width : Nat} {line row : Text} {rows : List Text} {c : Char}
    (h : WrittenAs width line rows) (m : row ∈ rows) (inside : c ∈ row) :
    c = '>' ∨ c = ' ' ∨ c ∈ line := by
  cases h with
  | whole =>
    rw [List.mem_singleton.mp m] at inside
    exact .inr (.inr inside)
  | wrapped long rest short =>
    rcases List.mem_cons.mp m with rfl | m
    · exact .inr (.inr (List.mem_of_mem_take inside))
    · obtain ⟨piece, hp, rfl⟩ := List.mem_map.mp m
      rcases List.mem_cons.mp inside with sign | inside
      · exact .inl sign
      · rcases List.mem_cons.mp inside with blank | inside
        · exact .inr (.inl blank)
        · have among := List.mem_flatten.mpr ⟨piece, hp, inside⟩
          rw [rest] at among
          exact .inr (.inr (List.mem_of_mem_drop among))

/-! ## Joining rows -/

theorem looksLikeEcho_prompted (l : Text) : looksLikeEcho (prompted l) = true := by
  have start : Text.startsWith ". ".toList (prompted l) = true := Text.startsWith_iff.mpr ⟨l, rfl⟩
  rw [looksLikeEcho, start]
  rfl

/-- However many rows go on with an echo, they are all joined onto it. -/
theorem joinOnto_continued (l : Text) (pieces : List Text) :
    joinOnto (prompted l) (pieces.map continued) = [prompted (l ++ pieces.flatten)] := by
  induction pieces generalizing l with
  | nil => rw [List.flatten_nil, List.append_nil]; rfl
  | cons piece pieces ih =>
    have after : Text.after? "> ".toList (continued piece) = some piece :=
      Text.after?_eq_some_iff.mpr rfl
    rw [List.map_cons, joinOnto, after]
    dsimp only
    rw [if_pos (looksLikeEcho_prompted l), List.flatten_cons, ← List.append_assoc]
    exact ih (l ++ piece)

/-- **The rows of a line come together.** -/
theorem joinOnto_rows {width : Nat} (wide : 3 ≤ width) {line first : Text} {others : List Text}
    (h : WrittenAs width line (first :: others)) : joinOnto first others = [line] := by
  cases h with
  | whole => rfl
  | @wrapped l pieces long rest short =>
    have whole : l.take (width - 2) ++ pieces.flatten = l := by
      obtain ⟨n, rfl⟩ := Nat.exists_eq_add_of_le' (show 2 ≤ width by omega)
      rw [rest]
      exact List.take_append_drop n l
    rw [take_prompted wide, joinOnto_continued, whole]

/-- **And the rows of a log, each with those of its line.** -/
theorem joinOnto_log {width : Nat} (wide : 3 ≤ width) {line first : Text} {others : List Text}
    (h : WrittenAs width line (first :: others)) {more : List Text} {rows : List (List Text)}
    (logged : ∀ l ∈ more, Logged l) (written : List.Forall₂ (WrittenAs width) more rows) :
    joinOnto first (others ++ rows.flatten) = line :: more := by
  -- the next line begins with a row that does not go on, so the line before it ends there
  induction written generalizing line first others with
  | nil => rw [List.flatten_nil, List.append_nil, joinOnto_rows wide h]
  | @cons next nextRows more rows next_written written ih =>
    obtain ⟨nextFirst, nextOthers, rfl⟩ := next_written.exists_first
    have fresh := next_written.not_continues wide (logged next List.mem_cons_self)
    rw [List.flatten_cons, List.cons_append, joinOnto_append fresh, joinOnto_rows wide h,
      ih next_written fun l m => logged l (List.mem_cons_of_mem _ m)]
    rfl

/-! ## Logs -/

section Logs

variable {width : Nat} {ls : List Text} {rows : List (List Text)}

/-- What no line holds no row holds, but for the sign. -/
theorem notMem_rows {c : Char} (apart : c ≠ '>' ∧ c ≠ ' ')
    (written : List.Forall₂ (WrittenAs width) ls rows) (absent : ∀ line ∈ ls, c ∉ line) :
    ∀ row ∈ rows.flatten, c ∉ row := by
  induction written with
  | nil => exact fun row m => absurd m List.not_mem_nil
  | cons first others ih =>
    intro row m inside
    rw [List.flatten_cons] at m
    rcases List.mem_append.mp m with m | m
    · rcases first.mem m inside with sign | blank | inside
      · exact apart.1 sign
      · exact apart.2 blank
      · exact absent _ List.mem_cons_self inside
    · exact ih (fun line m => absent line (List.mem_cons_of_mem _ m)) row m inside

/-- A log holds nothing that is taken out of raw output. -/
theorem plain_log (written : List.Forall₂ (WrittenAs width) ls rows)
    (logged : ∀ line ∈ ls, Logged line) :
    Terminal.dropCarriageReturns (Text.unlines rows.flatten) = Text.unlines rows.flatten ∧
      Terminal.plain (Text.unlines rows.flatten) = Text.unlines rows.flatten := by
  have noReturn : '\r' ∉ Text.unlines rows.flatten := by
    intro m
    rcases Text.mem_unlines m with lf | ⟨row, hrow, inside⟩
    · exact absurd lf (by decide)
    · exact notMem_rows (by decide) written (fun line m => (logged line m).noReturn) row hrow inside
  have noEscape : '\x1b' ∉ Text.unlines rows.flatten := by
    intro m
    rcases Text.mem_unlines m with lf | ⟨row, hrow, inside⟩
    · exact absurd lf (by decide)
    · exact notMem_rows (by decide) written (fun line m => (logged line m).noEscape) row hrow inside
  exact ⟨Terminal.dropCarriageReturns_of_notMem noReturn, Terminal.plain_eq_self noReturn noEscape⟩

/-- Joining a log gives back its lines, where it has one. -/
theorem joinWrapped_log (wide : 3 ≤ width) (written : List.Forall₂ (WrittenAs width) ls rows)
    (logged : ∀ line ∈ ls, Logged line) (something : ls ≠ []) :
    joinWrapped (Text.unlines rows.flatten) = ls := by
  have single : ∀ row ∈ rows.flatten, '\n' ∉ row :=
    notMem_rows (by decide) written fun line m => (logged line m).oneLine
  cases written with
  | nil => exact absurd rfl something
  | @cons line lineRows more rows first others =>
    obtain ⟨row, rest, rfl⟩ := first.exists_first
    have cut : Text.lines (Text.unlines ((row :: rest) :: rows).flatten)
        = row :: (rest ++ rows.flatten) := Text.lines_unlines (List.cons_ne_nil _ _) single
    rw [joinWrapped, cut]
    exact joinOnto_log wide first (fun l m => logged l (List.mem_cons_of_mem _ m)) others

/-- **Lines as they are** make a log too, one that is wide enough for all of them. -/
theorem exists_wide (ls : List Text) :
    ∃ width, 3 ≤ width ∧ List.Forall₂ (WrittenAs width) ls (ls.map fun line => [line]) := by
  refine ⟨ls.flatten.length + 3, Nat.le_add_left _ _, ?_⟩
  rw [List.forall₂_map_right_iff, List.forall₂_same]
  intro line m
  have fits : line.length ≤ ls.flatten.length := (List.sublist_flatten_of_mem m).length_le
  exact .whole fun _ _ => by omega

end Logs

/-- **Unwrapping undoes wrapping.** Let the echoes of a log be wrapped at any width, into any pieces
that fit. Joining gives back the lines that were written, and what is recovered from the output and
whether the sentinel is seen in it are the same as for the lines as they are. -/
theorem joinWrapped_written {width : Nat} (wide : 3 ≤ width) {ls : List Text}
    {rows : List (List Text)} (logged : ∀ line ∈ ls, Logged line)
    (written : List.Forall₂ (WrittenAs width) ls rows) :
    (ls ≠ [] → joinWrapped (Text.unlines rows.flatten) = ls) ∧
    (∀ expected sentinel returnCode cache,
      reconcile (Text.unlines rows.flatten) expected sentinel returnCode cache
        = reconcile (Text.unlines ls) expected sentinel returnCode cache) ∧
    ∀ sentinel, Automation.showsSentinel sentinel (Text.unlines rows.flatten)
        = Automation.showsSentinel sentinel (Text.unlines ls) := by
  obtain ⟨wider, wideEnough, asTheyAre⟩ := exists_wide ls
  have unwrapped := plain_log asTheyAre logged
  have joins := joinWrapped_log wideEnough asTheyAre logged
  have alone : (ls.map fun line => [line]).flatten = ls := by
    rw [← List.flatMap_def]
    exact List.flatMap_singleton' ls
  rw [alone] at unwrapped joins
  obtain ⟨unreturned, plain⟩ := plain_log written logged
  have same : joinWrapped (Text.unlines rows.flatten) = joinWrapped (Text.unlines ls) := by
    by_cases something : ls = []
    · subst something
      cases written
      rfl
    · rw [joinWrapped_log wide written logged something, joins something]
  refine ⟨joinWrapped_log wide written logged, fun expected sentinel returnCode cache => ?_,
    fun sentinel => ?_⟩
  · unfold reconcile
    rw [plain, unwrapped.2, same]
  · unfold Automation.showsSentinel
    rw [unreturned, unwrapped.1, same]

/-- An echo on three rows, cut in front of and behind an umlaut, with its output. -/
theorem joinWrapped_written_umlaut :
    (∀ line ∈ [". di ü x".toList, "2. ü".toList], Logged line) ∧
    List.Forall₂ (WrittenAs 5) [". di ü x".toList, "2. ü".toList]
      [[". di ".toList, "> ü".toList, ">  x".toList], ["2. ü".toList]] ∧
    joinWrapped ". di \n> ü\n>  x\n2. ü".toList = [". di ü x".toList, "2. ü".toList] := by
  have logged : ∀ line ∈ [". di ü x".toList, "2. ü".toList], Logged line := by
    intro line m
    rcases List.mem_cons.mp m with rfl | m
    · exact ⟨by decide, by decide, by decide, .inl ⟨"di ü x".toList, rfl⟩⟩
    · rw [List.mem_singleton.mp m]
      exact ⟨by decide, by decide, by decide, .inr (by unfold Continues; decide)⟩
  have written : List.Forall₂ (WrittenAs 5) [". di ü x".toList, "2. ü".toList]
      [[". di ".toList, "> ü".toList, ">  x".toList], ["2. ü".toList]] :=
    .cons (@WrittenAs.wrapped 5 "di ü x".toList ["ü".toList, " x".toList] (by decide) (by decide)
      (by decide)) (.cons (.whole fun _ _ => by decide) .nil)
  exact ⟨logged, written, (joinWrapped_written (by decide) logged written).1 (by decide)⟩

/-- A log without lines is read as one that has an empty line. -/
theorem joinWrapped_noLines : ¬ ∀ (width : Nat) (ls : List Text) (rows : List (List Text)),
    3 ≤ width → (∀ line ∈ ls, Logged line) → List.Forall₂ (WrittenAs width) ls rows →
      joinWrapped (Text.unlines rows.flatten) = ls := by
  intro all
  have none := all 3 [] [] (Nat.le_refl 3) (fun line m => absurd m List.not_mem_nil) .nil
  exact absurd none (by decide)

end Echo

end DoRunner
