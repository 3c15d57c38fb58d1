import DoRunner.Proofs.Chunk.Framing
import DoRunner.Proofs.Echo.Account

/-!
# Silent lines whose echo is missing

The echo of a line under a silencing prefix may be missing. The walk therefore passes over silent
lines until it meets one that the echo is tied to, and takes the first it meets, however loosely it
is tied.

That is sound as long as no silent line is tied to the echo of a line that may come next. Where one
is, the silent line *captures* the echo when its own is missing: a shared beginning is reported as
ambiguous, and an equal text is lost to the line it belongs to. Two silent lines of the same text
are the one exception, since it does not matter which of them the echo is counted for.

`Captures` states when that happens and `NoCapture` that it happens nowhere in a list of lines. The
result is exact: silent echoes may be left out of a log, any of them, if and only if no line
captures another's echo.
-/

namespace DoRunner.Reconcile

/-! ## Capturing -/

/-- The lines whose echo may be the next to come: silent ones, and the first that is not. -/
def reach : List ExpectedLine → List ExpectedLine
  | [] => []
  | e :: more => if e.kind = .silent then e :: reach more else [e]

/-- The echo of `later` is taken for one of `line`, and that makes a difference. -/
def Captures (line later : ExpectedLine) : Prop :=
  (line.text <+: later.text ∨ later.text <+: line.text) ∧
    ¬ (later.text = line.text ∧ later.kind = .silent)

instance (line later : ExpectedLine) : Decidable (Captures line later) := by
  unfold Captures
  infer_instance

/-- No silent line captures the echo of a line that may come next. -/
def NoCapture : List ExpectedLine → Prop
  | [] => True
  | e :: more => (e.kind = .silent → ∀ later ∈ reach more, ¬ Captures e later) ∧ NoCapture more

instance : (expected : List ExpectedLine) → Decidable (NoCapture expected)
  | [] => isTrue trivial
  | e :: more =>
    have := instDecidableNoCapture more
    inferInstanceAs
      (Decidable ((e.kind = .silent → ∀ later ∈ reach more, ¬ Captures e later) ∧ NoCapture more))

theorem mem_reach_append {silent : List ExpectedLine} (h : ∀ e ∈ silent, e.kind = .silent)
    (later : ExpectedLine) (more : List ExpectedLine) :
    later ∈ reach (silent ++ later :: more) := by
  induction silent with
  | nil =>
    rw [List.nil_append, reach]
    split
    · exact List.mem_cons_self
    · exact List.mem_cons_self
  | cons e silent ih =>
    rw [List.cons_append, reach, if_pos (h e List.mem_cons_self)]
    exact List.mem_cons_of_mem _ (ih (fun x m => h x (List.mem_cons_of_mem _ m)))

theorem exists_of_mem_reach {later : ExpectedLine} {more : List ExpectedLine}
    (h : later ∈ reach more) :
    ∃ silent rest, more = silent ++ later :: rest ∧ ∀ e ∈ silent, e.kind = .silent := by
  induction more with
  | nil => exact absurd h List.not_mem_nil
  | cons e more ih =>
    rw [reach] at h
    split at h
    · rename_i hk
      rcases List.mem_cons.mp h with rfl | h
      · exact ⟨[], more, rfl, fun _ m => absurd m List.not_mem_nil⟩
      · obtain ⟨silent, rest, rfl, hs⟩ := ih h
        refine ⟨e :: silent, rest, rfl, ?_⟩
        intro x m
        rcases List.mem_cons.mp m with rfl | m
        · exact hk
        · exact hs x m
    · rw [List.mem_singleton.mp h]
      exact ⟨[], more, rfl, fun _ m => absurd m List.not_mem_nil⟩

theorem NoCapture.of_suffix {back expected : List ExpectedLine} (h : NoCapture expected)
    (hs : back <:+ expected) : NoCapture back := by
  obtain ⟨front, rfl⟩ := hs
  induction front with
  | nil => exact h
  | cons e front ih => exact ih h.2

/-- Where something is captured: a silent line, more silent lines, and the line they take it
from. -/
theorem exists_capture {expected : List ExpectedLine} (h : ¬ NoCapture expected) :
    ∃ front line silent later back,
      expected = front ++ line :: (silent ++ later :: back) ∧ line.kind = .silent ∧
        (∀ e ∈ silent, e.kind = .silent) ∧ Captures line later := by
  induction expected with
  | nil => exact absurd trivial h
  | cons e more ih =>
    by_cases hmore : NoCapture more
    · have hown : ¬ (e.kind = .silent → ∀ later ∈ reach more, ¬ Captures e later) :=
        fun ho => h ⟨ho, hmore⟩
      obtain ⟨hk, hlater⟩ := Classical.not_imp.mp hown
      obtain ⟨later, hlater⟩ := Classical.not_forall.mp hlater
      obtain ⟨hl, hc⟩ := Classical.not_imp.mp hlater
      obtain ⟨silent, back, rfl, hs⟩ := exists_of_mem_reach hl
      exact ⟨[], e, silent, later, back, rfl, hk, hs, Classical.not_not.mp hc⟩
    · obtain ⟨front, line, silent, later, back, rfl, hk, hs, hc⟩ := ih hmore
      exact ⟨e :: front, line, silent, later, back, rfl, hk, hs, hc⟩

/-! ## Logs -/

/-- The entries of a log for all expected lines, in which only silent lines lack their echo. -/
structure IsLog (expected : List ExpectedLine) (entries : List LogEntry) : Prop where
  /-- There is an entry for each line. -/
  complete : entries.map (·.line) = expected
  /-- Lines that are not silent have their echo. -/
  echoed : ∀ e ∈ entries, e.line.kind ≠ .silent → e.echoed = true
  /-- What was printed is neither echo nor note. -/
  printed : ∀ e ∈ entries, ∀ line ∈ e.printed, IsPrinted line

/-- The raw output shows the entries and then the sentinel. Whatever comes after that continues no
line. -/
def Shows (raw sentinel : Text) (entries : List LogEntry) : Prop :=
  ∃ after, Text.lines (Terminal.plain raw)
      = entries.flatMap LogEntry.lines ++ Echo.prompted sentinel :: after ∧
    ∀ line ∈ after, ¬ Echo.Continues line

/-- What was printed, blank lines at the ends left out. -/
def printedOutput (entries : List LogEntry) : Text :=
  Text.unlines (trimBlankLines (entries.flatMap (·.printed)))

theorem IsLog.mem {expected : List ExpectedLine} {entries : List LogEntry}
    (h : IsLog expected entries) {e : LogEntry} (m : e ∈ entries) : e.line ∈ expected := by
  rw [← h.complete]
  exact List.mem_map_of_mem m

theorem IsLog.withEcho {expected : List ExpectedLine} {entries : List LogEntry}
    (h : IsLog expected entries) : IsLog expected (entries.map .withEcho) where
  complete := by
    rw [← h.complete, List.map_map]
    rfl
  echoed := by
    intro e m _
    obtain ⟨e', -, rfl⟩ := List.mem_map.mp m
    rfl
  printed := by
    intro e m
    obtain ⟨e', m', rfl⟩ := List.mem_map.mp m
    exact h.printed e' m'

theorem printed_withEcho (entries : List LogEntry) :
    (entries.map LogEntry.withEcho).flatMap (·.printed) = entries.flatMap (·.printed) := by
  rw [List.flatMap_map]
  rfl

/-! ## Logs without captures -/

section Missing

variable {cacheRoot sentinel : Text}

/-- **An echo finds its line, or a silent line of the same text.** What is expected after it are
more silent lines and then what came after its line. -/
theorem claim?_of_noCapture {pending more : List ExpectedLine} {e : ExpectedLine}
    (silent : ∀ x ∈ pending, x.kind = .silent) (free : NoCapture (pending ++ e :: more))
    (trimmed : ∀ x ∈ pending ++ e :: more, Text.trim x.text = x.text) :
    ∃ x pending', claim? (Echo.prompted e.text) (pending ++ e :: more)
        = some (x, .exact, pending' ++ more) ∧ (∀ x ∈ pending', x.kind = .silent) ∧
      pending' ++ more <:+ pending ++ e :: more := by
  have he : Text.trim e.text = e.text :=
    trimmed e (List.mem_append_right _ List.mem_cons_self)
  induction pending with
  | nil =>
    refine ⟨e, [], ?_, fun _ m => absurd m List.not_mem_nil, List.suffix_cons _ _⟩
    rw [List.nil_append, claim?, Echo.matchEcho_prompted_self he]
    rfl
  | cons q pending ih =>
    have hq : Text.trim q.text = q.text := trimmed q List.mem_cons_self
    have hsilent : ∀ x ∈ pending, x.kind = .silent :=
      fun x m => silent x (List.mem_cons_of_mem _ m)
    have hfree : ¬ Captures q e :=
      free.1 (silent q List.mem_cons_self) e (mem_reach_append hsilent e more)
    rw [List.cons_append, claim?, Echo.matchEcho_prompted he, hq]
    by_cases heq : e.text = q.text
    · -- the echo counts for the earlier of two silent lines
      have hk : e.kind = .silent := by
        by_contra hk
        exact hfree ⟨Or.inl (heq ▸ List.prefix_rfl), fun h => hk h.2⟩
      refine ⟨q, pending ++ [e], ?_, ?_, ?_⟩
      · rw [if_pos heq, List.append_assoc]
        rfl
      · intro x m
        rcases List.mem_append.mp m with m | m
        · exact hsilent x m
        · rw [List.mem_singleton.mp m]
          exact hk
      · rw [List.append_assoc]
        exact List.suffix_cons _ _
    · have hloose : ¬ (e.text ≠ [] ∧ (Text.startsWith e.text q.text ∨
          Text.startsWith q.text e.text)) := by
        rintro ⟨-, h⟩
        refine hfree ⟨?_, fun h => heq h.1⟩
        rcases h with h | h
        · obtain ⟨rest, hrest⟩ := Text.startsWith_iff.mp h
          exact Or.inr ⟨rest, hrest.symm⟩
        · obtain ⟨rest, hrest⟩ := Text.startsWith_iff.mp h
          exact Or.inl ⟨rest, hrest.symm⟩
      rw [if_neg heq, if_neg hloose]
      dsimp only
      rw [if_pos (silent q List.mem_cons_self)]
      obtain ⟨x, pending', hclaim, hp, hs⟩ :=
        ih hsilent free.2 (fun x m => trimmed x (List.mem_cons_of_mem _ m))
      exact ⟨x, pending', hclaim, hp, hs.trans (List.suffix_cons _ _)⟩

variable (cacheRoot sentinel) in
/-- **A log in which silent echoes are missing.** What is still expected are always silent lines
that were passed over and then the lines of the entries to come. -/
theorem walk_missing (s : State) (pending : List ExpectedLine) (entries : List LogEntry)
    (hs : s.expected = pending ++ entries.map (·.line))
    (silent : ∀ x ∈ pending, x.kind = .silent)
    (free : NoCapture (pending ++ entries.map (·.line)))
    (trimmed : ∀ x ∈ pending ++ entries.map (·.line), Text.trim x.text = x.text)
    (hsent : ∀ e ∈ entries, e.line.text ≠ Text.trim sentinel)
    (echoed : ∀ e ∈ entries, e.line.kind ≠ .silent → e.echoed = true)
    (printed : ∀ e ∈ entries, ∀ line ∈ e.printed, IsPrinted line) (started : 0 < s.matched) :
    ∃ s', walk cacheRoot sentinel s (entries.flatMap LogEntry.lines) = (s', false) ∧
      (∀ x ∈ s'.expected, x.kind = .silent) ∧ s'.error = s.error ∧
      s'.output = (entries.flatMap (·.printed)).reverse ++ s.output := by
  induction entries generalizing pending s with
  | nil =>
    refine ⟨s, rfl, ?_, rfl, rfl⟩
    rw [hs, List.map_nil, List.append_nil]
    exact silent
  | cons e entries ih =>
    rw [List.map_cons] at hs free trimmed
    have output : ∀ expected, ∀ line ∈ e.printed, IsOutput cacheRoot sentinel expected line :=
      fun expected line m => (printed e List.mem_cons_self line m).isOutput _
    -- what is left to show once the echo of `e`, if it came, is dealt with
    have rest : ∀ (pending' : List ExpectedLine) (s' : State),
        s'.expected = pending' ++ entries.map (·.line) → (∀ x ∈ pending', x.kind = .silent) →
        NoCapture (pending' ++ entries.map (·.line)) →
        (∀ x ∈ pending' ++ entries.map (·.line), Text.trim x.text = x.text) → 0 < s'.matched →
        s'.error = s.error → s'.output = s.output →
        ∃ s'', walk cacheRoot sentinel s' (e.printed ++ entries.flatMap LogEntry.lines)
            = (s'', false) ∧ (∀ x ∈ s''.expected, x.kind = .silent) ∧ s''.error = s.error ∧
          s''.output = ((e :: entries).flatMap (·.printed)).reverse ++ s.output := by
      intro pending' s' he hsilent hfree htrim hstart herr hout
      have own := walk_of_isOutput (output s'.expected) hstart
      obtain ⟨s'', hwalk, hexp, herr', hout'⟩ :=
        ih { s' with output := e.printed.reverse ++ s'.output } pending' he hsilent hfree htrim
          (fun x m => hsent x (List.mem_cons_of_mem _ m))
          (fun x m => echoed x (List.mem_cons_of_mem _ m))
          (fun x m => printed x (List.mem_cons_of_mem _ m)) hstart
      refine ⟨s'', ?_, hexp, herr'.trans herr, ?_⟩
      · rw [walk_append_of_unseen own, hwalk]
      · rw [hout', hout]
        simp
    rw [List.flatMap_cons, LogEntry.lines]
    split
    · -- the echo came
      obtain ⟨x, pending', hclaim, hsilent, hsuffix⟩ := claim?_of_noCapture silent free trimmed
      rw [← hs] at hclaim
      have fresh := echoesSentinel_prompted
        (trimmed e.line (List.mem_append_right _ List.mem_cons_self))
        (hsent e List.mem_cons_self)
      rw [List.cons_append, walk_cons_of_not_sentinel fresh, step_of_claim_exact hclaim]
      exact rest pending' _ rfl hsilent (free.of_suffix hsuffix)
        (fun y m => trimmed y (hsuffix.subset m)) (Nat.succ_pos _) rfl rfl
    · -- the echo is missing, so the line is silent
      rename_i hmissing
      have hk : e.line.kind = .silent := by
        by_contra hk
        exact hmissing (echoed e List.mem_cons_self hk)
      have assoc : pending ++ e.line :: entries.map (·.line)
          = pending ++ [e.line] ++ entries.map (·.line) := by
        rw [List.append_assoc]
        rfl
      rw [assoc] at hs free trimmed
      refine rest (pending ++ [e.line]) s hs ?_ free trimmed started rfl rfl
      intro x m
      rcases List.mem_append.mp m with m | m
      · exact silent x m
      · rw [List.mem_singleton.mp m]
        exact hk

/-! ## What is recovered -/

variable {raw : Text} {expected : List ExpectedLine} {entries : List LogEntry}
  {cache : CachePaths}

theorem fresh_of_mem_entry {e : LogEntry} (h : ∀ line ∈ e.printed, IsPrinted line) :
    ∀ line ∈ e.lines, ¬ Echo.Continues line := by
  intro line m
  rw [LogEntry.lines] at m
  split at m
  · rcases List.mem_cons.mp m with rfl | m
    · exact Echo.not_continues_prompted _
    · exact Echo.not_continues_of_echoContent? (h line m).unmarked
  · exact Echo.not_continues_of_echoContent? (h line m).unmarked

theorem Shows.joinWrapped (h : Shows raw sentinel entries)
    (printed : ∀ e ∈ entries, ∀ line ∈ e.printed, IsPrinted line) :
    ∃ after, Echo.joinWrapped (Terminal.plain raw)
      = entries.flatMap LogEntry.lines ++ Echo.prompted sentinel :: after := by
  obtain ⟨after, hlines, hafter⟩ := h
  refine ⟨after, ?_⟩
  rw [← hlines, Echo.joinWrapped_of_fresh]
  intro line m
  rw [hlines] at m
  rcases List.mem_append.mp m with m | m
  · obtain ⟨e, he, m⟩ := List.mem_flatMap.mp m
    exact fresh_of_mem_entry (printed e he) line m
  · rcases List.mem_cons.mp m with rfl | m
    · exact Echo.not_continues_prompted _
    · exact hafter line m

variable (cache) in
/-- **From a log with every echo, everything printed is recovered.** -/
theorem reconcile_echoed (log : IsLog expected entries) (shown : Shows raw sentinel entries)
    (echoed : ∀ e ∈ entries, e.echoed = true)
    (trimmed : ∀ x ∈ expected, Text.trim x.text = x.text)
    (hsent : ∀ x ∈ expected, x.text ≠ sentinel) (hz : Text.trim sentinel = sentinel) :
    (reconcile raw expected sentinel 0 cache).error = none ∧
      (reconcile raw expected sentinel 0 cache).output = printedOutput entries := by
  obtain ⟨after, hjoin⟩ := shown.joinWrapped log.printed
  have hwalk := walk_echoed cache.rootForCommands sentinel (.initial expected) entries []
    (by rw [log.complete, List.append_nil]; rfl) echoed
    (fun e m => trimmed _ (log.mem m)) (fun e m => by rw [hz]; exact hsent _ (log.mem m))
    (fun e m line hl => (log.printed e m line hl).isOutput _)
  rw [reconcile_of_walk 0 hjoin hz hwalk]
  refine ⟨rfl, ?_⟩
  simp [printedOutput, State.initial]

variable (cache) in
/-- **From a log in which silent echoes are missing, everything printed is recovered, as long as no
line captures the echo of another.** -/
theorem reconcile_missing (log : IsLog expected entries) (shown : Shows raw sentinel entries)
    (opening : ∀ x, expected.head? = some x → x.kind ≠ .silent) (free : NoCapture expected)
    (trimmed : ∀ x ∈ expected, Text.trim x.text = x.text)
    (hsent : ∀ x ∈ expected, x.text ≠ sentinel) (hz : Text.trim sentinel = sentinel) :
    (reconcile raw expected sentinel 0 cache).error = none ∧
      (reconcile raw expected sentinel 0 cache).output = printedOutput entries := by
  obtain ⟨after, hjoin⟩ := shown.joinWrapped log.printed
  have hmem : ∀ e ∈ entries, e.line ∈ expected := fun e m => log.mem m
  cases entries with
  | nil =>
    have hempty : expected = [] := log.complete.symm
    subst hempty
    rw [reconcile_of_walk 0 hjoin hz rfl]
    exact ⟨rfl, rfl⟩
  | cons e entries =>
    have hexp : expected = e.line :: entries.map (·.line) := log.complete.symm
    have hhead : expected.head? = some e.line := by rw [hexp]; rfl
    have hecho : e.echoed = true := log.echoed e List.mem_cons_self (opening _ hhead)
    -- the first line has its echo, so output counts from the beginning
    have hfirst := walk_echoed cache.rootForCommands sentinel (.initial expected) [e]
      (entries.map (·.line)) (by exact hexp)
      (fun x m => by rw [List.mem_singleton.mp m]; exact hecho)
      (fun x m => by rw [List.mem_singleton.mp m]; exact trimmed _ (hmem e List.mem_cons_self))
      (fun x m => by
        rw [List.mem_singleton.mp m, hz]
        exact hsent _ (hmem e List.mem_cons_self))
      (fun x m line hl => by
        rw [List.mem_singleton.mp m] at hl
        exact (log.printed e List.mem_cons_self line hl).isOutput _)
    obtain ⟨s', hwalk, hsilent, herr, hout⟩ := walk_missing cache.rootForCommands sentinel
      ⟨entries.map (·.line), 1, e.printed.reverse, [], none⟩ [] entries rfl
      (fun x m => absurd m List.not_mem_nil) (by rw [hexp] at free; exact free.2)
      (fun x m => trimmed x (by rw [hexp]; exact List.mem_cons_of_mem _ m))
      (fun x m => by rw [hz]; exact hsent _ (hmem x (List.mem_cons_of_mem _ m)))
      (fun x m => log.echoed x (List.mem_cons_of_mem _ m))
      (fun x m => log.printed x (List.mem_cons_of_mem _ m)) Nat.one_pos
    have hall : walk cache.rootForCommands sentinel (.initial expected)
        ((e :: entries).flatMap LogEntry.lines) = (s', false) := by
      have cut : (e :: entries).flatMap LogEntry.lines
          = [e].flatMap LogEntry.lines ++ entries.flatMap LogEntry.lines := by simp
      rw [cut, walk_append_of_unseen hfirst, ← hwalk]
      simp [State.initial]
    rw [reconcile_of_walk 0 hjoin hz hall]
    refine ⟨?_, ?_⟩
    · have hnone : s'.expected.find? (fun line => line.kind != .silent) = none := by
        rw [List.find?_eq_none]
        intro x m
        simp [hsilent x m]
      simp [verdict, herr, hnone]
    · rw [hout]
      simp [printedOutput]

/-! ## Logs with a capture -/

/-- The number of lines that must still echo. -/
def due (expected : List ExpectedLine) : Nat := expected.countP fun e => e.kind != .silent

theorem due_le_of_claim {line : Text} {e : ExpectedLine} {quality : Echo.MatchQuality}
    {expected more : List ExpectedLine} (h : claim? line expected = some (e, quality, more)) :
    due expected ≤ due more + 1 := by
  induction expected with
  | nil => exact absurd h (by simp [claim?])
  | cons x expected ih =>
    unfold due at ih ⊢
    rw [claim?] at h
    rw [List.countP_cons]
    split at h
    · obtain ⟨rfl, rfl, rfl⟩ := by simpa using h
      split
      · exact Nat.le_refl _
      · exact Nat.le_succ _
    · split at h
      · rename_i hk
        rw [if_neg (by simp [hk])]
        exact ih h
      · exact absurd h (by simp)

/-- A line pays for one line that must echo, at most. -/
theorem due_le_step (s : State) (line : Text) :
    due s.expected ≤ due (step cacheRoot s line).expected + 1 := by
  rw [step]
  split
  · rename_i h
    exact due_le_of_claim h
  · have same : (keep cacheRoot s line).expected = s.expected := by
      unfold keep
      split
      · rfl
      · split
        · rfl
        · split <;> rfl
    rw [same]
    exact Nat.le_succ _

theorem due_le_walk (s : State) (ls : List Text) :
    due s.expected ≤ due (walk cacheRoot sentinel s ls).1.expected + ls.length := by
  induction ls generalizing s with
  | nil => exact Nat.le_refl _
  | cons line ls ih =>
    rw [walk]
    split
    · exact Nat.le_add_right _ _
    · have first : due s.expected ≤ due (step cacheRoot s line).expected + 1 := due_le_step s line
      have rest := ih (step cacheRoot s line)
      rw [List.length_cons]
      omega

/-- What does not fit is not forgotten. -/
theorem error_walk {s : State} {x : ReconcileError} (h : s.error = some x) (ls : List Text) :
    (walk cacheRoot sentinel s ls).1.error = some x := by
  rw [walk_eq_foldl]
  exact error_foldl h _

theorem walk_unseen {ls : List Text} (h : ∀ line ∈ ls, echoesSentinel sentinel line = false)
    (s : State) :
    walk cacheRoot sentinel s ls = ((walk cacheRoot sentinel s ls).1, false) := by
  induction ls generalizing s with
  | nil => rfl
  | cons line ls ih =>
    rw [walk_cons_of_not_sentinel (h line List.mem_cons_self)]
    exact ih (fun l m => h l (List.mem_cons_of_mem _ m)) _

theorem verdict_ne_none_of_due {s : State} (h : 0 < due s.expected) (sentinelSeen : Bool) :
    verdict 0 sentinel s sentinelSeen ≠ none := by
  obtain ⟨x, m, hk⟩ := List.countP_pos_iff.mp h
  have found : (s.expected.find? fun line => line.kind != .silent).isSome :=
    List.find?_isSome.mpr ⟨x, m, hk⟩
  obtain ⟨y, hy⟩ := Option.isSome_iff_exists.mp found
  cases he : s.error with
  | none => simp [verdict, he, hy]
  | some e => simp [verdict, he]

variable (cacheRoot) in
/-- **A captured echo leaves its mark:** an error, or a line that will lack its echo. -/
theorem step_of_captures {line later : ExpectedLine} {silent back : List ExpectedLine} {s : State}
    (hs : s.expected = line :: (silent ++ later :: back)) (hk : line.kind = .silent)
    (hc : Captures line later) (hline : Text.trim line.text = line.text)
    (hlater : Text.trim later.text = later.text) (hne : later.text ≠ []) :
    (step cacheRoot s (Echo.prompted later.text)).error ≠ none ∨
      due back + 1 ≤ due (step cacheRoot s (Echo.prompted later.text)).expected := by
  have hmatch := Echo.matchEcho_prompted hlater line.text
  rw [hline] at hmatch
  by_cases heq : later.text = line.text
  · -- the text is lost to the silent line
    rw [if_pos heq] at hmatch
    have hklater : later.kind ≠ .silent := fun h => hc.2 ⟨heq, h⟩
    right
    rw [step_of_exact hs hmatch]
    dsimp only
    rw [due, due, List.countP_append, List.countP_cons, if_pos (by simpa using hklater)]
    omega
  · -- the silent line is tied to the echo by a shared beginning
    have hloose : later.text ≠ [] ∧ (Text.startsWith later.text line.text ∨
        Text.startsWith line.text later.text) := by
      refine ⟨hne, ?_⟩
      rcases hc.1 with ⟨rest, h⟩ | ⟨rest, h⟩
      · exact Or.inr (Text.startsWith_iff.mpr ⟨rest, h.symm⟩)
      · exact Or.inl (Text.startsWith_iff.mpr ⟨rest, h.symm⟩)
    rw [if_neg heq, if_pos hloose] at hmatch
    left
    have hclaim : claim? (Echo.prompted later.text) s.expected
        = some (line, .heuristic, silent ++ later :: back) := by
      rw [hs, claim?, hmatch]
    rw [step, hclaim]
    dsimp only
    rw [if_pos ⟨rfl, by rw [hk]; decide⟩]
    cases s.error with
    | none => exact Option.some_ne_none _
    | some e => exact Option.some_ne_none _

/-- An entry for a line that printed nothing. -/
def bare (echoed : ExpectedLine → Bool) (line : ExpectedLine) : LogEntry := ⟨line, echoed line, []⟩

/-- The log in which `line` and the silent lines behind it lack their echo, and so do the silent
lines behind `later`. -/
def capturing (front : List ExpectedLine) (line : ExpectedLine) (silent : List ExpectedLine)
    (later : ExpectedLine) (back : List ExpectedLine) : List LogEntry :=
  front.map (bare fun _ => true) ++ (line :: silent).map (bare fun _ => false) ++
    bare (fun _ => true) later :: back.map (bare fun e => e.kind != .silent)

theorem printed_capturing {front silent back : List ExpectedLine} {line later : ExpectedLine} :
    ∀ e ∈ capturing front line silent later back, e.printed = [] := by
  intro e m
  rcases List.mem_append.mp m with m | m
  · rcases List.mem_append.mp m with m | m
    · obtain ⟨x, -, rfl⟩ := List.mem_map.mp m
      rfl
    · obtain ⟨x, -, rfl⟩ := List.mem_map.mp m
      rfl
  · rcases List.mem_cons.mp m with rfl | m
    · rfl
    · obtain ⟨x, -, rfl⟩ := List.mem_map.mp m
      rfl

theorem isLog_capturing {front silent back : List ExpectedLine} {line later : ExpectedLine}
    (hk : line.kind = .silent) (hs : ∀ e ∈ silent, e.kind = .silent) :
    IsLog (front ++ line :: (silent ++ later :: back)) (capturing front line silent later back) where
  complete := by simp [capturing, bare, Function.comp_def]
  echoed := by
    intro e m hne
    rcases List.mem_append.mp m with m | m
    · rcases List.mem_append.mp m with m | m
      · obtain ⟨x, -, rfl⟩ := List.mem_map.mp m
        rfl
      · obtain ⟨x, hx, rfl⟩ := List.mem_map.mp m
        rcases List.mem_cons.mp hx with rfl | hx
        · exact absurd hk hne
        · exact absurd (hs x hx) hne
    · rcases List.mem_cons.mp m with rfl | m
      · rfl
      · obtain ⟨x, -, rfl⟩ := List.mem_map.mp m
        simpa [bare] using hne
  printed := by
    intro e m l ml
    rw [printed_capturing e m] at ml
    exact absurd ml List.not_mem_nil

theorem lines_capturing (front silent back : List ExpectedLine) (line later : ExpectedLine) :
    (capturing front line silent later back).flatMap LogEntry.lines =
      (front.map (bare fun _ => true)).flatMap LogEntry.lines ++ Echo.prompted later.text ::
        (back.filter fun e => e.kind != .silent).map fun e => Echo.prompted e.text := by
  have missing : ((line :: silent).map (bare fun _ => false)).flatMap LogEntry.lines = [] := by
    rw [List.flatMap_eq_nil_iff]
    intro e m
    obtain ⟨x, -, rfl⟩ := List.mem_map.mp m
    rfl
  have kept : (back.map (bare fun e => e.kind != .silent)).flatMap LogEntry.lines
      = (back.filter fun e => e.kind != .silent).map fun e => Echo.prompted e.text := by
    induction back with
    | nil => rfl
    | cons e back ih =>
      rw [List.map_cons, List.flatMap_cons, ih, List.filter_cons, bare, LogEntry.lines]
      dsimp only
      split <;> rfl
  rw [capturing, List.flatMap_append, List.flatMap_append, missing, List.append_nil,
    List.flatMap_cons, kept]
  rfl

/-- **A captured echo is reported,** though only silent echoes are missing. -/
theorem reconcile_capturing {front silent back : List ExpectedLine} {line later : ExpectedLine}
    (hexp : expected = front ++ line :: (silent ++ later :: back)) (hk : line.kind = .silent)
    (hs : ∀ e ∈ silent, e.kind = .silent) (hc : Captures line later)
    (shown : Shows raw sentinel (capturing front line silent later back))
    (trimmed : ∀ x ∈ expected, Text.trim x.text = x.text) (hne : ∀ x ∈ expected, x.text ≠ [])
    (hsent : ∀ x ∈ expected, x.text ≠ sentinel) (hz : Text.trim sentinel = sentinel) :
    (reconcile raw expected sentinel 0 cache).error ≠ none := by
  have log : IsLog expected (capturing front line silent later back) := by
    rw [hexp]
    exact isLog_capturing hk hs
  obtain ⟨after, hjoin⟩ := shown.joinWrapped log.printed
  have hfront : ∀ x ∈ front, x ∈ expected := by
    intro x m
    rw [hexp]
    exact List.mem_append_left _ m
  have hlater : later ∈ expected := by
    rw [hexp]
    exact List.mem_append_right _
      (List.mem_cons_of_mem _ (List.mem_append_right _ List.mem_cons_self))
  have hline : line ∈ expected := by
    rw [hexp]
    exact List.mem_append_right _ List.mem_cons_self
  have hback : ∀ x ∈ back, x ∈ expected := by
    intro x m
    rw [hexp]
    exact List.mem_append_right _
      (List.mem_cons_of_mem _ (List.mem_append_right _ (List.mem_cons_of_mem _ m)))
  have unseen : ∀ x ∈ expected, echoesSentinel sentinel (Echo.prompted x.text) = false :=
    fun x m => echoesSentinel_prompted (trimmed x m) (by rw [hz]; exact hsent x m)
  -- the lines in front claim their echoes
  have hfirst := walk_echoed cache.rootForCommands sentinel (.initial expected)
    (front.map (bare fun _ => true)) (line :: (silent ++ later :: back))
    (by simp [hexp, State.initial, bare, Function.comp_def])
    (fun e m => by obtain ⟨x, -, rfl⟩ := List.mem_map.mp m; rfl)
    (fun e m => by
      obtain ⟨x, hx, rfl⟩ := List.mem_map.mp m
      exact trimmed x (hfront x hx))
    (fun e m => by
      obtain ⟨x, hx, rfl⟩ := List.mem_map.mp m
      rw [hz]
      exact hsent x (hfront x hx))
    (fun e m l ml => by
      obtain ⟨x, -, rfl⟩ := List.mem_map.mp m
      exact absurd ml List.not_mem_nil)
  generalize hs1 : State.mk (line :: (silent ++ later :: back)) _ _ _ _ = s₁ at hfirst
  have hs1exp : s₁.expected = line :: (silent ++ later :: back) := by rw [← hs1]
  -- then the echo of `later` is captured, and the rest cannot make up for it
  let echoes := (back.filter fun e => e.kind != .silent).map fun e => Echo.prompted e.text
  let s₂ := step cache.rootForCommands s₁ (Echo.prompted later.text)
  have hrest : ∀ l ∈ echoes, echoesSentinel sentinel l = false := by
    intro l m
    obtain ⟨x, hx, rfl⟩ := List.mem_map.mp m
    exact unseen x (hback x (List.mem_filter.mp hx).1)
  have hwalk : walk cache.rootForCommands sentinel (.initial expected)
      ((capturing front line silent later back).flatMap LogEntry.lines)
        = ((walk cache.rootForCommands sentinel s₂ echoes).1, false) := by
    rw [lines_capturing, walk_append_of_unseen hfirst, walk_cons_of_not_sentinel
      (unseen later hlater)]
    exact walk_unseen hrest s₂
  rw [reconcile_of_walk 0 hjoin hz hwalk]
  dsimp only
  rcases step_of_captures cache.rootForCommands hs1exp hk hc (trimmed line hline)
    (trimmed later hlater) (hne later hlater) with herr | hdue
  · obtain ⟨x, hx⟩ := Option.ne_none_iff_exists'.mp herr
    simp [verdict, error_walk hx echoes, s₂]
  · apply verdict_ne_none_of_due
    have hpaid : due s₂.expected
        ≤ due (walk cache.rootForCommands sentinel s₂ echoes).1.expected + echoes.length :=
      due_le_walk s₂ echoes
    have hcount : echoes.length = due back := by
      rw [List.length_map, due, List.countP_eq_length_filter]
    have hleft : due back + 1 ≤ due s₂.expected := hdue
    omega

/-- Legible lines can be shown. -/
theorem exists_shows (legible : ∀ e ∈ entries, ∀ line ∈ e.lines, Terminal.Legible line)
    (hz : Terminal.Legible sentinel) : ∃ raw, Shows raw sentinel entries := by
  have all : ∀ line ∈ entries.flatMap LogEntry.lines ++ [Echo.prompted sentinel],
      Terminal.Legible line := by
    intro line m
    rcases List.mem_append.mp m with m | m
    · obtain ⟨e, he, m⟩ := List.mem_flatMap.mp m
      exact legible e he line m
    · rw [List.mem_singleton.mp m]
      exact Echo.legible_prompted hz
  refine ⟨Text.unlines (entries.flatMap LogEntry.lines ++ [Echo.prompted sentinel]), [], ?_,
    fun _ m => absurd m List.not_mem_nil⟩
  rw [Terminal.plain_unlines all,
    Text.lines_unlines (List.concat_ne_nil _ _) (fun line m => (all line m).oneLine)]

end Missing

/-! ## The law -/

section Law

variable {analysis : Analysis} {settings : AssemblySettings} {context : SessionContext}

theorem opening_of_indirect (h : (assemble analysis settings context).1.indirect = true) :
    ∀ x, (assemble analysis settings context).1.exclusion.head? = some x → x.kind ≠ .silent := by
  intro x hx
  rcases chunkOf_cases settings analysis.blocks with ⟨-, hi, -⟩ | ⟨-, hi, -⟩ | ⟨-, -, -, hexcl⟩
  · exact absurd (hi.symm.trans h) (by decide)
  · exact absurd (hi.symm.trans h) (by decide)
  · rw [assemble, hexcl] at hx
    rw [← Option.some.inj hx]
    exact EchoKind.noConfusion

/-- **Silent echoes may be missing exactly where no line captures another's echo.** For every chunk
whose body is included, and every log that shows all of its lines: a log with every echo is
accepted; and leaving out silent echoes, any of them, changes nothing about what is recovered if and
only if no silent line captures the echo of a line that may come next. -/
theorem silentEchoes_optional_iff (cache : CachePaths)
    (indirect : (assemble analysis settings context).1.indirect = true)
    (legible : ∀ x ∈ (assemble analysis settings context).1.exclusion, Terminal.Legible x.text)
    (hsent : ∀ x ∈ (assemble analysis settings context).1.exclusion,
      x.text ≠ (assemble analysis settings context).1.sentinel) :
    let chunk := (assemble analysis settings context).1
    (∀ entries raw, IsLog chunk.exclusion entries → (∀ e ∈ entries, e.echoed = true) →
      Shows raw chunk.sentinel entries →
      (reconcile raw chunk.exclusion chunk.sentinel 0 cache).error = none) ∧
    ((∀ entries raw full, IsLog chunk.exclusion entries → Shows raw chunk.sentinel entries →
        Shows full chunk.sentinel (entries.map LogEntry.withEcho) →
        (reconcile raw chunk.exclusion chunk.sentinel 0 cache).error = none ∧
          (reconcile raw chunk.exclusion chunk.sentinel 0 cache).output
            = (reconcile full chunk.exclusion chunk.sentinel 0 cache).output) ↔
      NoCapture chunk.exclusion) := by
  intro chunk
  have trimmed : ∀ x ∈ chunk.exclusion, Text.trim x.text = x.text :=
    fun x m => trim_of_mem_exclusion m
  have hne : ∀ x ∈ chunk.exclusion, x.text ≠ [] := fun x m => ne_nil_of_mem_exclusion m
  have hz : Text.trim chunk.sentinel = chunk.sentinel := trim_sentinelOf _
  refine ⟨?_, ?_, ?_⟩
  · intro entries raw log echoed shown
    exact (reconcile_echoed cache log shown echoed trimmed hsent hz).1
  · -- a capture gives a log that is not accepted
    intro accepted
    by_contra captured
    obtain ⟨front, line, silent, later, back, hexp, hk, hs, hc⟩ := exists_capture captured
    have log : IsLog chunk.exclusion (capturing front line silent later back) := by
      rw [hexp]
      exact isLog_capturing hk hs
    have readable : ∀ entries, IsLog chunk.exclusion entries → (∀ e ∈ entries, e.printed = []) →
        ∃ raw, Shows raw chunk.sentinel entries := by
      intro entries hlog hbare
      refine exists_shows ?_ legible_sentinel
      intro e m l ml
      rw [LogEntry.lines, hbare e m] at ml
      split at ml
      · rw [List.mem_singleton.mp ml]
        exact Echo.legible_prompted (legible _ (hlog.mem m))
      · exact absurd ml List.not_mem_nil
    obtain ⟨raw, shown⟩ := readable _ log printed_capturing
    obtain ⟨full, fullShown⟩ := readable _ log.withEcho (by
      intro e m
      obtain ⟨x, hx, rfl⟩ := List.mem_map.mp m
      exact printed_capturing x hx)
    exact reconcile_capturing hexp hk hs hc shown trimmed hne hsent hz
      (accepted _ raw full log shown fullShown).1
  · intro free entries raw full log shown fullShown
    have thin := reconcile_missing cache log shown (opening_of_indirect indirect) free
      trimmed hsent hz
    have whole := reconcile_echoed cache log.withEcho fullShown
      (fun e m => by obtain ⟨x, -, rfl⟩ := List.mem_map.mp m; rfl) trimmed hsent hz
    refine ⟨thin.1, ?_⟩
    rw [thin.2, whole.2, printedOutput, printedOutput, printed_withEcho]

/-- The law for a quiet block on its own, whose echoes may all be missing. -/
theorem silentEchoes_optional_quietBlock :
    let chunk := (assemble (.ofCode "quietly \x7b\nsum x\n\x7d".toList .newline)
      (.default ⟨"c".toList⟩) .initial).1
    chunk.indirect = true ∧
    (∀ x ∈ chunk.exclusion, Terminal.Legible x.text ∧ x.text ≠ chunk.sentinel) ∧
    NoCapture chunk.exclusion ∧
    ∀ entries raw full, IsLog chunk.exclusion entries → Shows raw chunk.sentinel entries →
      Shows full chunk.sentinel (entries.map LogEntry.withEcho) →
      (reconcile raw chunk.exclusion chunk.sentinel 0 ⟨"c".toList⟩).error = none ∧
        (reconcile raw chunk.exclusion chunk.sentinel 0 ⟨"c".toList⟩).output
          = (reconcile full chunk.exclusion chunk.sentinel 0 ⟨"c".toList⟩).output := by
  intro chunk
  have facts : chunk.indirect = true ∧ NoCapture chunk.exclusion ∧
      ∀ x ∈ chunk.exclusion, ('\n' ∉ x.text ∧ '\r' ∉ x.text ∧ '\x1b' ∉ x.text) ∧
        x.text.head? ≠ some '\x60' := by
    decide +kernel
  obtain ⟨indirect, free, chars⟩ := facts
  have legible : ∀ x ∈ chunk.exclusion, Terminal.Legible x.text := by
    intro x m
    obtain ⟨⟨hlf, hcr, hesc⟩, -⟩ := chars x m
    exact Terminal.legible_of_notMem hlf hcr hesc
  have hsent : ∀ x ∈ chunk.exclusion, x.text ≠ chunk.sentinel := by
    intro x m he
    exact (chars x m).2 (by rw [he]; rfl)
  exact ⟨indirect, fun x m => ⟨legible x m, hsent x m⟩, free,
    (silentEchoes_optional_iff _ indirect legible hsent).2.mpr free⟩

/-- A quiet block and, behind it, the statement that it quiets. When the echoes of the block are
missing, the line in the block captures the echo of the statement. -/
theorem silentEchoes_captured_byBlock :
    let cache : CachePaths := ⟨"c".toList⟩
    let chunk := (assemble (.ofCode "quietly \x7b\nsum x\n\x7d\nsum x".toList .newline)
      (.default cache) .initial).1
    chunk.indirect = true ∧
    chunk.exclusion = [⟨"include \"c/include.do\"".toList, .statement⟩,
      ⟨"quietly \x7b".toList, .silent⟩, ⟨"sum x".toList, .silent⟩, ⟨"\x7d".toList, .silent⟩,
      ⟨"sum x".toList, .statement⟩] ∧
    (reconcile (". include \"c/include.do\"\n. quietly \x7b\n. sum x\n. \x7d\n. sum x\n. ".toList
      ++ chunk.sentinel) chunk.exclusion chunk.sentinel 0 cache).error = none ∧
    (reconcile (". include \"c/include.do\"\n. sum x\n. ".toList ++ chunk.sentinel)
      chunk.exclusion chunk.sentinel 0 cache).error
        = some (.echoNotFound "sum x".toList) := by
  decide +kernel

end Law

end DoRunner.Reconcile
