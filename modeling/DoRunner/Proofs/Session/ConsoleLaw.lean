import DoRunner.Proofs.Chunk.Framing
import DoRunner.Proofs.Echo.Walk
import DoRunner.Proofs.Session.Execution
import DoRunner.Proofs.Transport.ConsoleReplies

/-!
# Executing over a console that answers

This is the law that a caller of a session relies on: when a buffer is executed over a console whose
channel answers each line, its statements are sent, each once and in order, up to the first that
fails or to the sentinel; the return code is that of the statement that fails, or zero; and the
output is what the statements sent have printed.

It is put together from what the layers below do. The assembler frames the body (`chunkOf_cases`);
the transport sends it and captures the replies (`Console.run_of_answers`); the walk over the
capture claims each echo and keeps all that was printed (`Reconcile.walk_echoed`). `Faithful` says
what is asked of the statements and of their output for that.
-/

namespace DoRunner.Session

open Reconcile (LogEntry IsOutput)

/-! ## What is asked of the output -/

/-- The exchanges of a body that is sent line by line, of which none is mistaken for another. -/
structure Faithful (chunk : Chunk) (cacheRoot : Text) (xs : List Exchange) : Prop where
  /-- Each line of the body has an exchange. -/
  lines : xs.map (·.line) = chunk.body
  /-- No statement is the sentinel. -/
  notSentinel : ∀ x ∈ xs, x.line ≠ chunk.sentinel
  /-- No statement reads like a return code. -/
  notCode : ∀ x ∈ xs, ReturnCode.digits? x.line = none
  /-- No statement holds anything that is taken out of raw output. -/
  plainLine : ∀ x ∈ xs, '\r' ∉ x.line ∧ '\x1b' ∉ x.line
  /-- Nor does what is printed. -/
  plain : ∀ x ∈ xs, x.IsPlain
  /-- Nothing that is printed continues the line before it. -/
  fresh : ∀ x ∈ xs, ∀ l ∈ x.printed, ¬ Echo.Continues l
  /-- All that is printed is output. -/
  output : ∀ x ∈ xs, ∀ l ∈ x.printed, IsOutput cacheRoot chunk.sentinel chunk.exclusion l
  /-- The first return code that a statement prints is positive and has 32 bits. -/
  codes : ∀ x ∈ xs, ∀ digits, x.printed.findSome? ReturnCode.digits? = some digits →
    ∃ n, Text.toNat? digits = some n ∧ 0 < n ∧ n ≤ ReturnCode.greatest

/-- The answer carries a return code just when a printed line does. -/
theorem Faithful.code? {chunk : Chunk} {cacheRoot : Text} {xs : List Exchange}
    (f : Faithful chunk cacheRoot xs) {x : Exchange} (m : x ∈ xs) :
    x.code? = none ∨ ∃ n : Nat, x.code? = some (n : Int) ∧ 0 < n := by
  have empty : ReturnCode.digits? [] = none := rfl
  unfold Exchange.code? ReturnCode.first?
  rw [x.lines_answer, List.findSome?_cons, f.notCode x m]
  dsimp only
  rw [List.findSome?_append]
  cases hd : x.printed.findSome? ReturnCode.digits? with
  | none => exact Or.inl rfl
  | some digits =>
    obtain ⟨n, hn, pos, le⟩ := f.codes x m digits hd
    refine Or.inr ⟨n, ?_, pos⟩
    rw [Option.some_or]
    dsimp only
    rw [hn]
    dsimp only
    rw [if_pos le]

theorem Faithful.failure? {chunk : Chunk} {cacheRoot : Text} {xs : List Exchange}
    (f : Faithful chunk cacheRoot xs) {code : Int} (h : Exchange.failure? xs = some code) :
    code ≠ 0 := by
  obtain ⟨x, m, hx⟩ := List.exists_of_findSome?_eq_some h
  rcases f.code? m with hnone | ⟨n, hn, pos⟩
  · rw [hnone] at hx
    exact absurd hx (by simp)
  · rw [hn] at hx
    rw [← Option.some.inj hx]
    omega

theorem Faithful.shown {chunk : Chunk} {cacheRoot : Text} {xs : List Exchange}
    (f : Faithful chunk cacheRoot xs) {x : Exchange} (m : x ∈ xs) :
    Console.shown x = Echo.prompted x.line :: x.printed ∧ x.received = x.answer := by
  have whole : Terminal.chomp x.line = x.line :=
    Terminal.chomp_of_getLast fun h => (f.plainLine x m).1 (List.mem_of_getLast? h)
  rw [Console.shown, Exchange.received, whole]
  exact ⟨rfl, rfl⟩

/-! ## The walk over the capture -/

/-- The entries of the log that exchanges make. -/
theorem exists_entries {ys : List Exchange} {es : List ExpectedLine}
    (h : es.map (·.text) = ys.map (·.line)) :
    ∃ entries : List LogEntry, entries.map (·.line) = es ∧
      (∀ e ∈ entries, e.echoed = true ∧ ∃ x ∈ ys, e.line.text = x.line ∧ e.printed = x.printed) ∧
      entries.flatMap LogEntry.lines = ys.flatMap (fun x => Echo.prompted x.line :: x.printed) ∧
      entries.flatMap (·.printed) = ys.flatMap (·.printed) := by
  induction ys generalizing es with
  | nil =>
    obtain rfl := List.map_eq_nil_iff.mp h
    exact ⟨[], rfl, fun _ m => absurd m List.not_mem_nil, rfl, rfl⟩
  | cons x ys ih =>
    obtain ⟨e, es', rfl, he, hes⟩ := List.map_eq_cons_iff.mp h
    obtain ⟨entries, hlines, hall, hshown, hprinted⟩ := ih hes
    refine ⟨⟨e, true, x.printed⟩ :: entries, ?_, ?_, ?_, ?_⟩
    · rw [List.map_cons, hlines]
    · intro y m
      rcases List.mem_cons.mp m with rfl | m
      · exact ⟨rfl, x, List.mem_cons_self, he, rfl⟩
      · obtain ⟨hecho, x', m', hx'⟩ := hall y m
        exact ⟨hecho, x', List.mem_cons_of_mem _ m', hx'⟩
    · rw [List.flatMap_cons, List.flatMap_cons, hshown, LogEntry.lines, if_pos rfl, he]
    · rw [List.flatMap_cons, List.flatMap_cons, hprinted]

section Walk

variable {chunk : Chunk} {cacheRoot : Text} {xs ys zs : List Exchange}

/-- Over the first exchanges of a body, the walk claims their echoes and keeps all that they
printed. -/
theorem Faithful.walk (f : Faithful chunk cacheRoot (ys ++ zs))
    (body : chunk.exclusion.map (·.text) = chunk.body)
    (trimmed : ∀ e ∈ chunk.exclusion, Text.trim e.text = e.text)
    (hz : Text.trim chunk.sentinel = chunk.sentinel) :
    ∃ more, more.map (·.text) = zs.map (·.line) ∧ (∀ e ∈ more, e ∈ chunk.exclusion) ∧
      Reconcile.walk cacheRoot chunk.sentinel (.initial chunk.exclusion) (ys.flatMap Console.shown)
        = (⟨more, ys.length, (ys.flatMap (·.printed)).reverse, [], none⟩, false) := by
  have lines := body.trans f.lines.symm
  rw [List.map_append] at lines
  obtain ⟨es, more, hsplit, hes, hmore⟩ := List.map_eq_append_iff.mp lines
  obtain ⟨entries, hlines, hall, hshown, hprinted⟩ := exists_entries hes
  have hlen : entries.length = ys.length := by
    rw [← List.length_map (f := fun e : LogEntry => e.line), hlines,
      ← List.length_map (f := fun e : ExpectedLine => e.text), hes, List.length_map]
  have mem : ∀ e ∈ entries, e.line ∈ chunk.exclusion := by
    intro e m
    rw [hsplit, ← hlines]
    exact List.mem_append_left _ (List.mem_map_of_mem m)
  have hwalk := Reconcile.walk_echoed cacheRoot chunk.sentinel (.initial chunk.exclusion) entries
    more (by rw [hlines]; exact hsplit)
    (fun e m => (hall e m).1) (fun e m => trimmed _ (mem e m))
    (fun e m => by
      obtain ⟨-, x, mx, hx, -⟩ := hall e m
      rw [hz, hx]
      exact f.notSentinel x (List.mem_append_left _ mx))
    (fun e m l ml => by
      obtain ⟨-, x, mx, -, hx⟩ := hall e m
      rw [hx] at ml
      exact f.output x (List.mem_append_left _ mx) l ml)
  have same : ys.flatMap Console.shown
      = ys.flatMap fun x => Echo.prompted x.line :: x.printed := by
    rw [List.flatMap_def, List.flatMap_def,
      List.map_congr_left fun x m => (f.shown (List.mem_append_left _ m)).1]
  refine ⟨more, hmore, ?_, ?_⟩
  · intro e m
    rw [hsplit]
    exact List.mem_append_right _ m
  · rw [same, ← hshown, hwalk, hlen, hprinted]
    simp [Reconcile.State.initial]

/-- The lines of a capture. -/
theorem Faithful.lines_capture (f : Faithful chunk cacheRoot xs) (ys : List Exchange)
    (sub : ∀ y ∈ ys, y ∈ xs) (tail : List Text) (legible : ∀ l ∈ tail, '\n' ∉ l ∧ '\r' ∉ l ∧ '\x1b' ∉ l)
    (fresh : ∀ l ∈ tail, ¬ Echo.Continues l) :
    Echo.joinWrapped (Terminal.plain (Text.ended (ys.flatMap Console.shown ++ tail)))
      = ys.flatMap Console.shown ++ tail ++ [[]] := by
  have shown : ∀ l ∈ ys.flatMap Console.shown,
      ('\n' ∉ l ∧ '\r' ∉ l ∧ '\x1b' ∉ l) ∧ ¬ Echo.Continues l := by
    intro l m
    obtain ⟨x, mx, ml⟩ := List.mem_flatMap.mp m
    have mx := sub x mx
    rw [(f.shown mx).1] at ml
    rcases List.mem_cons.mp ml with rfl | ml
    · exact ⟨⟨Echo.notMem_prompted (by decide) x.oneLine,
        Echo.notMem_prompted (by decide) (f.plainLine x mx).1,
        Echo.notMem_prompted (by decide) (f.plainLine x mx).2⟩, Echo.not_continues_prompted _⟩
    · exact ⟨⟨x.oneLineEach l ml, f.plain x mx l ml⟩, f.fresh x mx l ml⟩
  have all : ∀ l ∈ ys.flatMap Console.shown ++ tail,
      ('\n' ∉ l ∧ '\r' ∉ l ∧ '\x1b' ∉ l) ∧ ¬ Echo.Continues l := by
    intro l m
    rcases List.mem_append.mp m with m | m
    · exact shown l m
    · exact ⟨legible l m, fresh l m⟩
  have absent : ∀ c, c ≠ '\n' → (∀ l ∈ ys.flatMap Console.shown ++ tail, c ∉ l) →
      c ∉ Text.ended (ys.flatMap Console.shown ++ tail) := by
    intro c hc hall m
    rcases Text.mem_ended m with he | ⟨l, hl, m⟩
    · exact hc he
    · exact hall l hl m
  have plain : Terminal.plain (Text.ended (ys.flatMap Console.shown ++ tail))
      = Text.ended (ys.flatMap Console.shown ++ tail) :=
    Terminal.plain_eq_self (absent '\r' (by decide) fun l m => (all l m).1.2.1)
      (absent '\x1b' (by decide) fun l m => (all l m).1.2.2)
  have lines := Text.lines_ended_append (fun l m => (all l m).1.1) []
  rw [List.append_nil] at lines
  rw [plain, Echo.joinWrapped_of_fresh, lines]
  · rfl
  · intro l m
    rw [lines] at m
    rcases List.mem_append.mp m with m | m
    · exact (all l m).2
    · rw [List.mem_singleton.mp m]
      exact Echo.not_continues_of_echoContent? rfl

end Walk

/-! ## What is recovered -/

section Recovered

variable {chunk : Chunk} {cache : CachePaths} {xs : List Exchange} {z : Exchange}

/-- What is recovered when no statement fails. -/
theorem Faithful.reconcile_success (f : Faithful chunk cache.rootForCommands xs)
    (body : chunk.exclusion.map (·.text) = chunk.body)
    (trimmed : ∀ e ∈ chunk.exclusion, Text.trim e.text = e.text)
    (hz : Text.trim chunk.sentinel = chunk.sentinel)
    (clean : '\n' ∉ chunk.sentinel ∧ '\r' ∉ chunk.sentinel ∧ '\x1b' ∉ chunk.sentinel)
    (closing : z.line = chunk.sentinel) (quiet : z.printed = []) :
    let r := reconcile (Console.logged .empty (xs ++ [z])).text chunk.exclusion chunk.sentinel 0
      cache
    r.output = Text.unlines (Reconcile.trimBlankLines ((xs ++ [z]).flatMap (·.printed))) ∧
      r.artifacts = [] ∧ r.error = none := by
  have f' : Faithful chunk cache.rootForCommands (xs ++ []) := by rwa [List.append_nil]
  obtain ⟨more, hmore, -, hwalk⟩ := f'.walk body trimmed hz
  obtain rfl := List.map_eq_nil_iff.mp hmore
  have last : Console.shown z = [Echo.prompted chunk.sentinel] := by
    have whole : Terminal.chomp chunk.sentinel = chunk.sentinel :=
      Terminal.chomp_of_getLast fun h => clean.2.1 (List.mem_of_getLast? h)
    rw [Console.shown, closing, quiet, whole]
  have lines := f.lines_capture xs (fun y m => m) [Echo.prompted chunk.sentinel]
    (fun l m => by
      rw [List.mem_singleton.mp m]
      exact ⟨Echo.notMem_prompted (by decide) clean.1, Echo.notMem_prompted (by decide) clean.2.1,
        Echo.notMem_prompted (by decide) clean.2.2⟩)
    (fun l m => by
      rw [List.mem_singleton.mp m]
      exact Echo.not_continues_prompted _)
  have shown : Echo.joinWrapped (Terminal.plain (Console.logged .empty (xs ++ [z])).text)
      = xs.flatMap Console.shown ++ Echo.prompted chunk.sentinel :: [[]] := by
    rw [Console.text_logged, List.flatMap_append, List.flatMap_singleton, last, lines,
      List.append_assoc]
    rfl
  rw [Reconcile.reconcile_of_walk 0 shown hz hwalk]
  refine ⟨?_, rfl, rfl⟩
  rw [List.flatMap_append, List.flatMap_singleton, quiet, List.append_nil, List.reverse_reverse]

/-- What is recovered when a statement fails. -/
theorem Faithful.reconcile_failure {ys zs : List Exchange}
    (f : Faithful chunk cache.rootForCommands (ys ++ zs)) (nonempty : ys ≠ [])
    (body : chunk.exclusion.map (·.text) = chunk.body)
    (trimmed : ∀ e ∈ chunk.exclusion, Text.trim e.text = e.text)
    (hz : Text.trim chunk.sentinel = chunk.sentinel) {code : Int} (failed : code ≠ 0) :
    let r := reconcile (Console.logged .empty ys).text chunk.exclusion chunk.sentinel code cache
    r.output = Text.unlines (Reconcile.trimBlankLines (ys.flatMap (·.printed))) ∧
      r.artifacts = [] ∧ r.error = none := by
  obtain ⟨more, -, -, hwalk⟩ := f.walk body trimmed hz
  have lines := f.lines_capture ys (fun y m => List.mem_append_left _ m) []
    (fun l m => absurd m List.not_mem_nil) (fun l m => absurd m List.not_mem_nil)
  rw [List.append_nil] at lines
  -- the empty line at the end of the capture is kept, and then left out as a blank one
  have started : 0 < ys.length := List.length_pos_iff.mpr nonempty
  have ended : Reconcile.walk cache.rootForCommands chunk.sentinel (.initial chunk.exclusion)
      (Echo.joinWrapped (Terminal.plain (Console.logged .empty ys).text))
        = (⟨more, ys.length, [] :: (ys.flatMap (·.printed)).reverse, [], none⟩, false) := by
    rw [Console.text_logged, lines, Reconcile.walk_append_of_unseen hwalk,
      Reconcile.walk_of_isOutput (fun l m => by
        rw [List.mem_singleton.mp m]
        exact Reconcile.isPrinted_nil.isOutput _) started]
    rfl
  rw [Reconcile.reconcile_of_walk_unseen code ended]
  refine ⟨?_, rfl, ?_⟩
  · rw [List.reverse_cons, List.reverse_reverse, Reconcile.trimBlankLines_append_blank rfl]
  · rw [Reconcile.verdict, if_pos failed]

/-- **What is recovered is what was printed,** whether a statement fails or not. -/
theorem Faithful.recovered {settings : AssemblySettings} {scan : BlockScan}
    (f : Faithful chunk cache.rootForCommands xs) (assembled : chunk = chunkOf settings scan)
    (direct : chunk.indirect = false) (nonempty : chunk.body ≠ [])
    (closing : z.line = chunk.sentinel) (quiet : z.printed = []) :
    let sent := Exchange.upToFailure (xs ++ [z])
    let r := reconcile (Console.logged .empty sent).text chunk.exclusion chunk.sentinel
      ((Exchange.failure? xs).getD 0) cache
    r.output = Text.unlines (Reconcile.trimBlankLines (sent.flatMap (·.printed))) ∧
      r.artifacts = [] ∧ r.error = none := by
  intro sent
  subst assembled
  have body := exclusion_of_not_indirect nonempty direct
  have trimmed : ∀ e ∈ (chunkOf settings scan).exclusion, Text.trim e.text = e.text :=
    fun e m => trim_of_mem_exclusion m
  cases hfail : Exchange.failure? xs with
  | none =>
    have whole : sent = xs ++ [z] :=
      Exchange.upToFailure_concat hfail (z.code?_of_sentinel closing quiet)
    rw [whole, Option.getD_none]
    exact f.reconcile_success body trimmed trim_sentinel notMem_sentinel closing quiet
  | some code =>
    have cut : sent = Exchange.upToFailure xs := Exchange.upToFailure_of_some hfail [z]
    obtain ⟨zs, hzs⟩ := Exchange.upToFailure_isPrefix xs
    have started : Exchange.upToFailure xs ≠ [] := by
      cases xs with
      | nil => exact absurd hfail (by simp [Exchange.failure?])
      | cons x xs => exact List.cons_ne_nil _ _
    rw [cut, Option.getD_some]
    have f' : Faithful (chunkOf settings scan) cache.rootForCommands
        (Exchange.upToFailure xs ++ zs) := by rwa [hzs]
    exact f'.reconcile_failure started body trimmed trim_sentinel (f.failure? hfail)

end Recovered

/-! ## Executing -/

section Console

variable {σ : Type} [LineChannel σ] {h : Host (Session (Console (Recorded σ)))}
  {s : Session (Console (Recorded σ))} {code : Text} {chunk : Chunk} {xs : List Exchange}
  {z : Exchange} {left : Nat} {after : Host σ}

/-- What a buffer comes to that is sent line by line and answered: what is recovered from the
answers, and a channel that was sent the lines up to the first that failed. -/
theorem execute_captured (notMeta : MetaCommand.ofCode? code = none)
    (notHelp : helpCommand? code = none) (prepared : h.guest.prepare code = (.ok chunk, s))
    (direct : chunk.indirect = false) (nonempty : chunk.body ≠ [])
    (empty : h.guest.transport.buffer = []) (lines : xs.map (·.line) = chunk.body)
    (plain : ∀ x ∈ xs, x.IsPlain) (closing : z.line = chunk.sentinel) (quiet : z.printed = [])
    (answers : Console.Answers (Exchange.upToFailure (xs ++ [z])) h.guest.transport.timeout
      ⟨h.guest.transport.channel.peer, h.disk⟩ left after) :
    let sent := Exchange.upToFailure (xs ++ [z])
    execute code h =
      (s.resultOf chunk
        ⟨{ Console.logged .empty sent with returnCode := (Exchange.failure? xs).getD 0 }, none⟩,
        ⟨{ s with transport :=
            { channel := ⟨after.guest, (sent.map fun x => PeerCall.sendLine x.line).reverse
                ++ h.guest.transport.channel.calls⟩
              timeout := h.guest.transport.timeout
              buffer := [] } }, after.disk⟩) := by
  intro sent
  obtain ⟨scan, context, hchunk, hs⟩ := prepare_eq_ok prepared
  have htransport : s.transport = h.guest.transport := by rw [hs]
  have oneLine : ∀ line ∈ (chunkOf h.guest.settings scan).body, '\n' ∉ line := by
    intro line m
    rw [← hchunk, ← lines] at m
    obtain ⟨x, -, rfl⟩ := List.mem_map.mp m
    exact x.oneLine
  have submitted := submissionLines_of_direct (by rwa [← hchunk]) (by rwa [← hchunk]) oneLine
  rw [← hchunk, ← lines, ← closing] at submitted
  have hrun := Console.run_of_answers submitted plain (Exchange.isPlain_of_quiet quiet)
    (z.code?_of_sentinel closing quiet)
    (h := ⟨s.transport, h.disk⟩) (by rw [htransport]; exact empty)
    (by rw [htransport]; exact answers.recorded h.guest.transport.channel.calls)
  rw [execute_of_prepared notMeta (by rwa [notHelp, Option.getD_none]) nonempty
    (s.writeScript_of_direct direct h.disk), runChunk_of_run _ _ _ hrun]
  refine Prod.ext rfl ?_
  dsimp only
  rw [htransport]

/-- **The law of a console that answers.** A buffer that is complete, no shortcut, and sent line by
line is executed over a channel that answers its lines and then the sentinel, up to the first that
fails. Then those lines are sent, each once and in order, and nothing else is asked of the channel;
the return code is that of the line that fails, or zero; there is no error; the transcript lists the
lines sent with the answers to them; and the output is what they printed, without the blank lines at
its ends. -/
theorem execute_of_answers (notMeta : MetaCommand.ofCode? code = none)
    (notHelp : helpCommand? code = none) (prepared : h.guest.prepare code = (.ok chunk, s))
    (direct : chunk.indirect = false) (nonempty : chunk.body ≠ [])
    (empty : h.guest.transport.buffer = [])
    (faithful : Faithful chunk h.guest.settings.cache.rootForCommands xs)
    (closing : z.line = chunk.sentinel) (quiet : z.printed = [])
    (answers : Console.Answers (Exchange.upToFailure (xs ++ [z])) h.guest.transport.timeout
      ⟨h.guest.transport.channel.peer, h.disk⟩ left after) :
    let sent := Exchange.upToFailure (xs ++ [z])
    execute code h =
      ({ returnCode := (Exchange.failure? xs).getD 0
         output := Text.unlines (Reconcile.trimBlankLines (sent.flatMap (·.printed)))
         artifacts := []
         error := none
         metaCommand := none
         transcript := sent.map fun x => ⟨x.line, x.answer⟩ },
        ⟨{ s with transport :=
            { channel := ⟨after.guest, (sent.map fun x => PeerCall.sendLine x.line).reverse
                ++ h.guest.transport.channel.calls⟩
              timeout := h.guest.transport.timeout
              buffer := [] } }, after.disk⟩) := by
  intro sent
  obtain ⟨scan, context, hchunk, hs⟩ := prepare_eq_ok prepared
  have hsettings : s.settings = h.guest.settings := by rw [hs]
  have clean := @notMem_sentinel h.guest.settings scan
  rw [← hchunk] at clean
  obtain ⟨output, artifacts, error⟩ :=
    faithful.recovered (by rw [hchunk]) direct nonempty closing quiet
  have transcript : (Console.logged .empty sent).transcript
      = sent.map fun x => ⟨x.line, x.answer⟩ := by
    have received : ∀ x ∈ sent, x.received = x.answer := by
      intro x m
      rcases List.mem_append.mp ((Exchange.upToFailure_isPrefix (xs ++ [z])).subset m) with m | m
      · exact (faithful.shown m).2
      · rw [List.mem_singleton.mp m, Exchange.received, Exchange.answer, closing,
          Terminal.chomp_of_getLast fun hl => clean.2.1 (List.mem_of_getLast? hl)]
    show [] ++ sent.map _ = _
    rw [List.nil_append]
    exact List.map_congr_left fun x m => by rw [received x m]
  rw [execute_captured notMeta notHelp prepared direct nonempty empty faithful.lines faithful.plain
    closing quiet answers]
  refine Prod.ext ?_ rfl
  unfold resultOf
  dsimp only
  rw [hsettings, output, artifacts, error, transcript]
  rfl

end Console

/-! ## Over a teletype -/

/-- A session over a teletype that prints the given lines. -/
def overTeletype (cacheRoot : Text) (script : List (List Text)) :
    Host (Session (Console (Recorded Teletype))) :=
  ⟨⟨.ofChannel (.ofPeer ⟨script, none⟩) 1000000, .default ⟨cacheRoot⟩, .initial, 80⟩, .empty⟩

/-- What is sent line by line may be found by evaluation. -/
theorem exists_prepared {τ : Type} (s : Session τ) (code : Text) (body : List Text)
    (h : let analysis := Analysis.ofCode code s.context.mode
      analysis.incomplete? = none ∧ (assemble analysis s.settings s.context).1.body = body ∧
        (assemble analysis s.settings s.context).1.indirect = false) :
    ∃ chunk s', s.prepare code = (.ok chunk, s') ∧ chunk.body = body ∧ chunk.indirect = false :=
  ⟨_, _, s.prepare_of_complete h.1, h.2⟩

/-- What is printed may be checked line by line. -/
theorem faithful_of_isPrinted {chunk : Chunk} {cacheRoot : Text} {xs : List Exchange}
    (sentinel : chunk.sentinel.head? = some '\x60') (lines : xs.map (·.line) = chunk.body)
    (statements : ∀ x ∈ xs, x.line.head? ≠ some '\x60' ∧ ReturnCode.digits? x.line = none ∧
      '\r' ∉ x.line ∧ '\x1b' ∉ x.line)
    (printed : ∀ x ∈ xs, ∀ l ∈ x.printed, ('\r' ∉ l ∧ '\x1b' ∉ l) ∧ Echo.echoContent? l = none ∧
      GraphNote.written? l = none ∧ GraphNote.notFound? l = none)
    (codes : ∀ x ∈ xs, x.printed.findSome? ReturnCode.digits? = none ∨
      ∃ digits n, x.printed.findSome? ReturnCode.digits? = some digits ∧
        Text.toNat? digits = some n ∧ 0 < n ∧ n ≤ ReturnCode.greatest) :
    Faithful chunk cacheRoot xs where
  lines := lines
  notSentinel := by
    intro x m he
    rw [← he] at sentinel
    exact (statements x m).1 sentinel
  notCode := fun x m => (statements x m).2.1
  plainLine := fun x m => (statements x m).2.2
  plain := fun x m l ml => (printed x m l ml).1
  fresh := fun x m l ml => Echo.not_continues_of_echoContent? (printed x m l ml).2.1
  output := fun x m l ml =>
    have h := (printed x m l ml).2
    Reconcile.IsPrinted.isOutput ⟨h.1, h.2.1, h.2.2⟩ _
  codes := by
    intro x m digits hd
    rcases codes x m with hnone | ⟨digits', n, hd', hn⟩
    · rw [hnone] at hd
      exact absurd hd (by simp)
    · rw [hd'] at hd
      rw [← Option.some.inj hd]
      exact ⟨n, hn⟩

/-- The law for a buffer whose second statement fails. -/
theorem execute_of_answers_unrecognized :
    let code := "di 1\nzz\ndi 2".toList
    let failure := ["command zz is unrecognized".toList, "r(199);".toList]
    let h := overTeletype "cache".toList [["1".toList], failure]
    (execute code h).1 =
        { returnCode := 199
          output := "1\ncommand zz is unrecognized\nr(199);".toList
          artifacts := []
          error := none
          metaCommand := none
          transcript := [⟨"di 1".toList, "di 1\n1\n".toList⟩,
            ⟨"zz".toList, "zz\ncommand zz is unrecognized\nr(199);\n".toList⟩] } ∧
      (execute code h).2.guest.transport.channel.calls
        = [.sendLine "zz".toList, .sendLine "di 1".toList] := by
  intro code failure h
  obtain ⟨chunk, s, prepared, body, direct⟩ := h.guest.exists_prepared code
    ["di 1".toList, "zz".toList, "di 2".toList] (by decide +kernel)
  obtain ⟨scan, context, assembled, -⟩ := prepare_eq_ok prepared
  let xs : List Exchange := [⟨"di 1".toList, ["1".toList], by decide, by decide⟩,
    ⟨"zz".toList, failure, by decide, by decide⟩, .silent "di 2".toList (by decide)]
  let z : Exchange := .silent chunk.sentinel (by rw [assembled]; exact notMem_sentinel.1)
  have faithful : Faithful chunk h.guest.settings.cache.rootForCommands xs := by
    apply faithful_of_isPrinted
    · rfl
    · rw [body]
      rfl
    · decide
    · decide
    · intro x m
      simp only [xs, List.mem_cons, List.not_mem_nil, or_false] at m
      rcases m with rfl | rfl | rfl
      · exact Or.inl rfl
      · exact Or.inr ⟨"199".toList, 199, rfl, rfl, by decide, by decide⟩
      · exact Or.inl rfl
  have two : (Exchange.upToFailure (xs ++ [z])).length = 2 := rfl
  obtain ⟨left, answers⟩ := Teletype.answers (Exchange.upToFailure (xs ++ [z])) [] h.disk
    h.guest.transport.timeout (by rw [two]; decide)
  have law := execute_of_answers rfl rfl prepared direct (by rw [body]; decide) rfl faithful rfl
    rfl answers
  rw [law]
  exact ⟨rfl, rfl⟩

/-- Where the law cannot say more. The output of a statement loses a blank line at its beginning,
though all that is asked of the statement and the channel holds; nothing at all is sent of a buffer
without statements; and an injected line is sent as two when the path in it has a line feed. -/
theorem consoleLaw_exceptions :
    (let h := overTeletype "cache".toList [[[], "1".toList], []]
     ∃ chunk s, h.guest.prepare "di 1".toList = (.ok chunk, s) ∧ chunk.indirect = false ∧
      ∃ (x z : Exchange) (left : Nat) (after : Host Teletype),
        Faithful chunk h.guest.settings.cache.rootForCommands [x] ∧
        z.line = chunk.sentinel ∧ z.printed = [] ∧
        Console.Answers (Exchange.upToFailure [x, z]) h.guest.transport.timeout
          ⟨h.guest.transport.channel.peer, h.disk⟩ left after ∧
        (execute "di 1".toList h).1.output ≠ Text.unlines (x.printed ++ z.printed)) ∧
    (execute [] (overTeletype "cache".toList [])).2.guest.transport.channel.calls = [] ∧
    (let chunk := (assemble (.ofCode "scatter y x".toList .newline) (.default ⟨"a\nb".toList⟩)
      .initial).1
     chunk.indirect = false ∧ chunk.body.length = 3 ∧ chunk.submissionLines.length = 5) := by
  refine ⟨?_, by decide +kernel, by decide +kernel⟩
  intro h
  obtain ⟨chunk, s, prepared, body, direct⟩ := h.guest.exists_prepared
    "di 1".toList ["di 1".toList] (by decide +kernel)
  obtain ⟨scan, context, assembled, rfl⟩ := prepare_eq_ok prepared
  have nonempty : chunk.body ≠ [] := by
    rw [body]
    exact List.cons_ne_nil _ _
  let x : Exchange := ⟨"di 1".toList, [[], "1".toList], by decide, by decide⟩
  let z : Exchange := .silent chunk.sentinel (by rw [assembled]; exact notMem_sentinel.1)
  have faithful : Faithful chunk h.guest.settings.cache.rootForCommands [x] := by
    apply faithful_of_isPrinted
    · rfl
    · rw [body]
      rfl
    · decide
    · decide
    · exact fun y m => Or.inl (by rw [List.mem_singleton.mp m]; rfl)
  have sent : Exchange.upToFailure [x, z] = [x, z] :=
    @Exchange.upToFailure_concat [x] z rfl (z.code?_of_sentinel rfl rfl)
  obtain ⟨left, both⟩ := Teletype.answers [x, z] [] h.disk
    h.guest.transport.timeout (show 2 * 2 ≤ 1000000 by decide)
  have answers : Console.Answers (Exchange.upToFailure [x, z]) h.guest.transport.timeout
      ⟨h.guest.transport.channel.peer, h.disk⟩ left ⟨⟨[], none⟩, h.disk⟩ := by
    rw [sent]
    exact both
  refine ⟨chunk, _, prepared, direct, x, z, left, _, faithful, rfl, rfl, answers, ?_⟩
  have hrun := execute_captured rfl rfl prepared direct nonempty rfl faithful.lines faithful.plain
    rfl rfl answers
  have output := (faithful.recovered assembled direct nonempty (z := z) rfl rfl).1
  rw [hrun]
  unfold resultOf
  dsimp only
  intro same
  have whole : Exchange.upToFailure ([x] ++ [z]) = [x, z] := sent
  rw [whole] at output same
  have trimmed : Text.unlines (Reconcile.trimBlankLines [[], "1".toList])
      = Text.unlines [[], "1".toList] := output.symm.trans same
  exact absurd trimmed (by decide)

end DoRunner.Session
