import Mathlib.Data.List.NodupEquivFin
import Mathlib.Data.List.Forall2
import DoRunner.Proofs.Echo.Account

/-!
# What an accepted log has shown

When the output of a chunk is accepted, everything that had to echo has echoed: each line that is not
silent has a line of its own before the sentinel, in the same order, and a statement's line is its
exact echo (`reconcile_justified`).

The walk keeps this up line by line. What it no longer expects has been claimed in order, but for
silent lines it passed over, and a claim that is too loose for its line leaves an error behind, which
is never forgotten.
-/

namespace DoRunner.Reconcile

/-- The lines that must echo. -/
def mustEcho (expected : List ExpectedLine) : List ExpectedLine :=
  expected.filter fun e => e.kind ≠ .silent

theorem mustEcho_append (expected more : List ExpectedLine) :
    mustEcho (expected ++ more) = mustEcho expected ++ mustEcho more := List.filter_append ..

theorem mustEcho_of_silent {expected : List ExpectedLine}
    (h : ∀ e ∈ expected, e.kind = .silent) : mustEcho expected = [] := by
  rw [mustEcho, List.filter_eq_nil_iff]
  intro e m
  simpa using h e m

/-- A line is what a submitted line must echo as: a statement exactly, a line of a block in one way or
another. -/
def Justifies (e : ExpectedLine) (line : Text) : Prop :=
  match e.kind with
  | .statement => Echo.matchEcho line e.text = some .exact
  | .block => ∃ quality, Echo.matchEcho line e.text = some quality
  | .silent => True

section Run

variable {cacheRoot : Text}

/-- A claim that leaves no error is what the line must echo as. -/
theorem justifies_of_tied {line : Text} {e : ExpectedLine} {quality : Echo.MatchQuality}
    (tied : Echo.matchEcho line e.text = some quality)
    (accepted : ¬ (quality = .heuristic ∧ e.kind ≠ .block)) : Justifies e line := by
  unfold Justifies
  cases kind : e.kind with
  | statement =>
    cases quality with
    | exact => exact tied
    | heuristic => exact absurd ⟨rfl, by rw [kind]; decide⟩ accepted
  | block => exact ⟨quality, tied⟩
  | silent => trivial

/-- Where a step leaves no error, the line is what must echo of what is no longer expected, or
nothing of that must. -/
theorem claimed_step {s : State} {line : Text} (accepted : (step cacheRoot s line).error = none) :
    ∃ claimed, s.expected = claimed ++ (step cacheRoot s line).expected ∧
      (mustEcho claimed = [] ∨ ∃ e, mustEcho claimed = [e] ∧ Justifies e line) := by
  have met := step_meets cacheRoot s line
  generalize step cacheRoot s line = s' at accepted met ⊢
  cases met with
  | @echo skipped more e quality found split silent tied =>
    have fits : ¬ (quality = .heuristic ∧ e.kind ≠ .block) := by
      intro loose
      dsimp only at accepted
      rw [if_pos loose] at accepted
      cases earlier : s.error <;> rw [earlier] at accepted <;> exact absurd accepted (by simp)
    refine ⟨skipped ++ [e], by rw [split, List.append_assoc, List.singleton_append], ?_⟩
    rw [mustEcho_append, mustEcho_of_silent silent, List.nil_append, mustEcho,
      List.filter_cons]
    split
    · exact .inr ⟨e, rfl, justifies_of_tied tied fits⟩
    · exact .inl rfl
  | note => exact ⟨[], rfl, .inl rfl⟩
  | early => exact ⟨[], rfl, .inl rfl⟩
  | output => exact ⟨[], rfl, .inl rfl⟩

/-- **Where a walk leaves no error, what it no longer expects has echoed.** -/
theorem exists_claimed {s : State} {ls : List Text}
    (accepted : (ls.foldl (step cacheRoot) s).error = none) :
    ∃ claimed, s.expected = claimed ++ (ls.foldl (step cacheRoot) s).expected ∧
      List.SublistForall₂ Justifies (mustEcho claimed) ls := by
  induction ls generalizing s with
  | nil => exact ⟨[], rfl, .nil⟩
  | cons line ls ih =>
    rw [List.foldl_cons] at accepted ⊢
    obtain ⟨here, splitHere, shown⟩ := claimed_step (error_of_foldl accepted)
    obtain ⟨later, splitLater, justified⟩ := ih accepted
    refine ⟨here ++ later, by rw [splitHere, splitLater, List.append_assoc], ?_⟩
    rw [mustEcho_append]
    rcases shown with nothing | ⟨e, one, justifies⟩
    · rw [nothing]
      exact .cons_right justified
    · rw [one]
      exact .cons justifies justified

/-- The only error a step adds is an echo that is tied too loosely. -/
theorem ambiguous_step {s : State}
    (before : ∀ x, s.error = some x → ∃ line echo, x = .ambiguous line echo) (line : Text) :
    ∀ x, (step cacheRoot s line).error = some x → ∃ line echo, x = .ambiguous line echo := by
  have met := step_meets cacheRoot s line
  generalize step cacheRoot s line = s' at met ⊢
  cases met with
  | @echo skipped more e quality found split silent tied =>
    intro x h
    dsimp only at h
    split at h
    · cases earlier : s.error with
      | none =>
        rw [earlier] at h
        exact ⟨e.text, line, (Option.some.inj h).symm⟩
      | some y =>
        rw [earlier] at h
        exact before x (earlier.trans h)
    · exact before x h
  | note => exact before
  | early => exact before
  | output => exact before

theorem ambiguous_foldl {s : State} {ls : List Text}
    (before : ∀ x, s.error = some x → ∃ line echo, x = .ambiguous line echo) :
    ∀ x, (ls.foldl (step cacheRoot) s).error = some x → ∃ line echo, x = .ambiguous line echo := by
  induction ls generalizing s with
  | nil => exact before
  | cons line ls ih => exact ih (ambiguous_step before line)

end Run

/-- A chunk that did not fail is accepted when no echo was too loose, none is missing, and the
sentinel was seen. -/
theorem verdict_eq_none_iff {sentinel : Text} {s : State} {sentinelSeen : Bool} :
    verdict 0 sentinel s sentinelSeen = none ↔
      s.error = none ∧ mustEcho s.expected = [] ∧ sentinelSeen = true := by
  have missing : (s.expected.find? fun line => line.kind != .silent) = none ↔
      mustEcho s.expected = [] := by
    rw [List.find?_eq_none, mustEcho, List.filter_eq_nil_iff]
    simp
  rw [verdict, if_neg (by decide), ← missing]
  cases s.error with
  | some x => simp
  | none =>
    cases s.expected.find? fun line => line.kind != .silent with
    | some e => simp
    | none => cases sentinelSeen <;> simp

/-- Where the members of a list are related to members of another one in order, each of them has a
place there, further along than the one before it. -/
theorem exists_place {α β : Type} {R : α → β → Prop} {l : List α} {l' : List β}
    (h : List.SublistForall₂ R l l') :
    ∃ place : Fin l.length ↪o Fin l'.length, ∀ i, R (l.get i) (l'.get (place i)) := by
  obtain ⟨chosen, related, sublist⟩ := List.sublistForall₂_iff.mp h
  obtain ⟨length, pairs⟩ := List.forall₂_iff_get.mp related
  obtain ⟨place, same⟩ := List.sublist_iff_exists_fin_orderEmbedding_get_eq.mp sublist
  refine ⟨(Fin.castOrderIso length).toOrderEmbedding.trans place, fun i => ?_⟩
  have here := pairs i i.isLt (length ▸ i.isLt)
  rw [same] at here
  exact here

/-- **An accepted reconciliation is justified.** When a chunk that did not fail is accepted, the
sentinel was echoed, and every line that must echo has a line of its own before that echo, in order:
a statement its exact echo, a line of a block one that is tied to it. A chunk that failed can only
be reported for an echo that was too loose. -/
theorem reconcile_justified (raw : Text) (expected : List ExpectedLine) (sentinel : Text)
    (cache : CachePaths) :
    let lines := Echo.joinWrapped (Terminal.plain raw)
    ((reconcile raw expected sentinel 0 cache).error = none →
      (∃ line ∈ lines, Echo.matchEcho line sentinel = some .exact) ∧
      ∃ place : Fin (mustEcho expected).length ↪o Fin (beforeSentinel sentinel lines).length,
        ∀ i, Justifies ((mustEcho expected).get i)
          ((beforeSentinel sentinel lines).get (place i))) ∧
    ∀ returnCode ≠ 0, ∀ x, (reconcile raw expected sentinel returnCode cache).error = some x →
      ∃ line echo, x = .ambiguous line echo := by
  intro lines
  constructor
  · intro accepted
    rw [reconcile_eq] at accepted
    dsimp only at accepted
    rw [verdict_eq_none_iff] at accepted
    obtain ⟨unharmed, nothingOwed, seen⟩ := accepted
    obtain ⟨claimed, split, justified⟩ := exists_claimed unharmed
    constructor
    · obtain ⟨line, m, echoes⟩ := List.any_eq_true.mp seen
      exact ⟨line, m, eq_of_beq echoes⟩
    · have all := congrArg mustEcho split
      rw [mustEcho_append, ← afterLog, nothingOwed, List.append_nil] at all
      rw [show mustEcho expected = mustEcho claimed from all]
      exact exists_place justified
  · intro returnCode failed x reported
    rw [reconcile_eq] at reported
    dsimp only at reported
    rw [verdict, if_pos failed] at reported
    exact ambiguous_foldl (fun _ h => absurd h (by simp [State.initial])) x reported

/-- A block whose first line is echoed in a form of its own, with the echo of a silent line missing:
accepted. The same echo for a statement is too loose, also when the chunk failed. -/
theorem reconcile_justified_looseBlock :
    let cache : CachePaths := ⟨"c".toList⟩
    let raw := ". foreach v\n  2. di 1\n1\n. di 2\n2\n. * done".toList
    let block : List ExpectedLine := [⟨"foreach v in a \x7b".toList, .block⟩,
      ⟨"quietly di 0".toList, .silent⟩, ⟨"di 1".toList, .block⟩, ⟨"di 2".toList, .statement⟩]
    let statement : List ExpectedLine := [⟨"foreach v in a \x7b".toList, .statement⟩]
    let before := [". foreach v", "  2. di 1", "1", ". di 2", "2"].map String.toList
    (reconcile raw block "* done".toList 0 cache).error = none ∧
    (∃ place : Fin (mustEcho block).length ↪o Fin before.length,
      ∀ i, Justifies ((mustEcho block).get i) (before.get (place i))) ∧
    (reconcile raw statement "* done".toList 198 cache).error
      = some (.ambiguous "foreach v in a \x7b".toList ". foreach v".toList) ∧
    ∃ line echo, ReconcileError.ambiguous "foreach v in a \x7b".toList ". foreach v".toList
      = .ambiguous line echo := by
  intro cache raw block statement before
  have accepted : (reconcile raw block "* done".toList 0 cache).error = none := by
    decide +kernel
  have reported : (reconcile raw statement "* done".toList 198 cache).error
      = some (.ambiguous "foreach v in a \x7b".toList ". foreach v".toList) := by
    decide +kernel
  have shown : beforeSentinel "* done".toList (Echo.joinWrapped (Terminal.plain raw)) = before := by
    decide +kernel
  obtain ⟨-, placed⟩ := (reconcile_justified raw block "* done".toList cache).1 accepted
  rw [shown] at placed
  exact ⟨accepted, placed, reported,
    (reconcile_justified raw statement "* done".toList cache).2 198 (by decide) _ reported⟩

end DoRunner.Reconcile
