import DoRunner.Echo.Line
import DoRunner.Proofs.Echo.PlainOutput

/-!
# Echoes behind the prompt

A submitted line comes back behind the prompt, and a line that was trimmed when it was submitted is
then read back as itself: `matchEcho` ties a prompted line to the line alone, to those it begins
with, and to those that begin with it. Output that carries no marker is tied to nothing.

Only lines that start with the mark of a continuation are ever joined to the line before them. The
lines of a text without such lines are therefore left alone, and a text may be cut at every line
that does not start with the mark.
-/

namespace DoRunner.Echo

/-- A line behind the prompt. -/
def prompted (line : Text) : Text := '.' :: ' ' :: line

/-- Whether a line continues the one before it. -/
def Continues (line : Text) : Prop := Text.startsWith "> ".toList line = true

theorem notMem_prompted {c : Char} {line : Text} (hc : c ≠ '.' ∧ c ≠ ' ') (h : c ∉ line) :
    c ∉ prompted line := by
  intro m
  rcases List.mem_cons.mp m with rfl | m
  · exact hc.1 rfl
  · rcases List.mem_cons.mp m with rfl | m
    · exact hc.2 rfl
    · exact h m

theorem legible_prompted {line : Text} (h : Terminal.Legible line) :
    Terminal.Legible (prompted line) := by
  refine ⟨notMem_prompted (by decide) h.oneLine, ?_, ?_⟩
  · cases line with
    | nil => decide
    | cons c line =>
      rw [prompted, List.getLast?_cons_cons, List.getLast?_cons_cons]
      exact h.unreturned
  · rw [prompted, Terminal.strip, if_neg (by decide), Terminal.strip, if_neg (by decide),
      h.stripped]

/-! ## What is behind the prompt -/

theorem head?_ne_space_of_trim {line : Text} (h : Text.trim line = line) :
    line.head? ≠ some ' ' := by
  intro he
  have : isBlank ' ' = false := Text.head?_trim (t := line) (by rw [h]; exact he)
  exact absurd this (by decide)

theorem echoContent?_prompted {line : Text} (h : line.head? ≠ some ' ') :
    echoContent? (prompted line) = some line := by
  cases line with
  | nil => rfl
  | cons c line =>
    rw [prompted, echoContent?.eq_2]
    intro rest he
    rw [List.cons.injEq] at he
    exact h (by rw [he.1]; rfl)

/-- **What a prompted line is tied to.** -/
theorem matchEcho_prompted {line : Text} (h : Text.trim line = line) (submitted : Text) :
    matchEcho (prompted line) submitted =
      if line = Text.trim submitted then some .exact
      else if line ≠ [] ∧ (Text.startsWith line (Text.trim submitted) ∨
          Text.startsWith (Text.trim submitted) line) then some .heuristic
      else none := by
  rw [matchEcho, echoContent?_prompted (head?_ne_space_of_trim h)]
  dsimp only
  rw [h]

theorem matchEcho_prompted_self {line : Text} (h : Text.trim line = line) :
    matchEcho (prompted line) line = some .exact := by
  rw [matchEcho_prompted h, if_pos h.symm]

theorem matchEcho_prompted_eq_exact_iff {line : Text} (h : Text.trim line = line)
    (submitted : Text) :
    matchEcho (prompted line) submitted = some .exact ↔ line = Text.trim submitted := by
  rw [matchEcho_prompted h]
  split
  · rename_i he
    exact iff_of_true rfl he
  · rename_i hne
    refine iff_of_false ?_ hne
    split
    · exact fun he => absurd he (by decide)
    · exact fun he => absurd he (by decide)

theorem matchEcho_of_echoContent? {line : Text} (h : echoContent? line = none) (submitted : Text) :
    matchEcho line submitted = none := by
  rw [matchEcho, h]

theorem not_continues_prompted (line : Text) : ¬ Continues (prompted line) := by
  unfold Continues
  rw [Text.startsWith_iff]
  rintro ⟨rest, he⟩
  exact absurd (congrArg List.head? he) (by simp [prompted])

/-- A continuation carries a marker. -/
theorem not_continues_of_echoContent? {line : Text} (h : echoContent? line = none) :
    ¬ Continues line := by
  unfold Continues
  rw [Text.startsWith_iff]
  rintro ⟨rest, rfl⟩
  exact absurd h (by simp [echoContent?])

/-! ## Joining -/

theorem after?_of_not_continues {line : Text} (h : ¬ Continues line) :
    Text.after? "> ".toList line = none := by
  unfold Continues Text.startsWith at h
  rwa [Bool.not_eq_true, Option.isSome_eq_false_iff, Option.isNone_iff_eq_none] at h

theorem joinOnto_of_fresh {ls : List Text} (h : ∀ line ∈ ls, ¬ Continues line) (previous : Text) :
    joinOnto previous ls = previous :: ls := by
  induction ls generalizing previous with
  | nil => rfl
  | cons line ls ih =>
    rw [joinOnto, after?_of_not_continues (h line List.mem_cons_self)]
    dsimp only
    rw [ih (fun l m => h l (List.mem_cons_of_mem _ m))]

/-- A text without continuations is left alone. -/
theorem joinWrapped_of_fresh {t : Text} (h : ∀ line ∈ Text.lines t, ¬ Continues line) :
    joinWrapped t = Text.lines t := by
  unfold joinWrapped
  cases hl : Text.lines t with
  | nil => rfl
  | cons line more =>
    dsimp only
    rw [hl] at h
    exact joinOnto_of_fresh (fun l m => h l (List.mem_cons_of_mem _ m)) line

theorem joinOnto_append {next : Text} (h : ¬ Continues next) (previous : Text)
    (ls ms : List Text) :
    joinOnto previous (ls ++ next :: ms) = joinOnto previous ls ++ joinOnto next ms := by
  induction ls generalizing previous with
  | nil =>
    rw [List.nil_append, joinOnto, joinOnto, after?_of_not_continues h]
    rfl
  | cons line ls ih =>
    rw [List.cons_append, joinOnto, joinOnto]
    split
    · split
      · exact ih _
      · rw [ih, List.cons_append]
    · rw [ih, List.cons_append]

/-- **Joining does not reach over a line that continues nothing.** -/
theorem joinWrapped_append_lf {t : Text}
    (h : ∀ line, (Text.lines t).head? = some line → ¬ Continues line) (s : Text) :
    joinWrapped (s ++ '\n' :: t) = joinWrapped s ++ joinWrapped t := by
  unfold joinWrapped
  rw [Text.lines_append_lf]
  cases hs : Text.lines s with
  | nil => exact absurd hs (Text.lines_ne_nil s)
  | cons previous ls =>
    cases ht : Text.lines t with
    | nil => exact absurd ht (Text.lines_ne_nil t)
    | cons next ms =>
      dsimp only [List.cons_append]
      exact joinOnto_append (h next (by rw [ht]; rfl)) previous ls ms

/-- Joining single lines gives single lines. -/
theorem notMem_lf_of_mem_joinOnto {previous : Text} {ls : List Text} (first : '\n' ∉ previous)
    (rest : ∀ line ∈ ls, '\n' ∉ line) {joined : Text} (m : joined ∈ joinOnto previous ls) :
    '\n' ∉ joined := by
  induction ls generalizing previous with
  | nil => rwa [List.mem_singleton.mp m]
  | cons line ls ih =>
    have next := rest line List.mem_cons_self
    have more : ∀ l ∈ ls, '\n' ∉ l := fun l m => rest l (List.mem_cons_of_mem _ m)
    rw [joinOnto] at m
    split at m
    · rename_i continued after
      split at m
      · obtain rfl := Text.after?_eq_some_iff.mp after
        refine ih (fun h => ?_) more m
        rcases List.mem_append.mp h with h | h
        · exact first h
        · exact next (List.mem_append_right _ h)
      · rcases List.mem_cons.mp m with rfl | m
        · exact first
        · exact ih next more m
    · rcases List.mem_cons.mp m with rfl | m
      · exact first
      · exact ih next more m

theorem notMem_lf_of_mem_joinWrapped {t line : Text} (m : line ∈ joinWrapped t) :
    '\n' ∉ line := by
  unfold joinWrapped at m
  cases hl : Text.lines t with
  | nil => exact absurd hl (Text.lines_ne_nil t)
  | cons previous ls =>
    rw [hl] at m
    have single : ∀ l ∈ previous :: ls, '\n' ∉ l := by
      intro l m
      rw [← hl] at m
      exact Text.notMem_of_mem_lines m
    exact notMem_lf_of_mem_joinOnto (single previous List.mem_cons_self)
      (fun l m => single l (List.mem_cons_of_mem _ m)) m

end DoRunner.Echo
