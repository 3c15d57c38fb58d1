import DoRunner.Proofs.Transport.ConsoleReplies
import DoRunner.Proofs.Transport.Runs

/-!
# What becomes of the output

Everything that a channel delivers goes through the buffer of a call, where line ends are made line
feeds, and from there a reply at a time into the capture. So at any time what was delivered is what
has been taken for the capture, then the pages shown of a reply that is broken off, then the buffer
(`Accounts`). A call that fails leaves the last two behind: nobody adds them to the capture.

How it is known what a channel has delivered is left open here: somebody may listen, or the channel
may keep a ledger. All that is asked is that each read adds what it delivers (`Hearing`).
-/

namespace DoRunner

/-! ## Line ends -/

namespace Terminal

/-- A text with some carriage returns before line feeds gone. -/
inductive Rewritten : Text → Text → Prop where
  | same {t : Text} : Rewritten t t
  /-- One more is gone. -/
  | lineEnd {s front back : Text} (before : Rewritten s (front ++ '\r' :: '\n' :: back)) :
    Rewritten s (front ++ '\n' :: back)

namespace Rewritten

theorem trans {s t u : Text} (h : Rewritten s t) (more : Rewritten t u) : Rewritten s u := by
  induction more with
  | same => exact h
  | lineEnd _ ih => exact .lineEnd ih

theorem append_right {s t : Text} (h : Rewritten s t) (u : Text) : Rewritten (s ++ u) (t ++ u) := by
  induction h with
  | same => exact .same
  | lineEnd _ ih =>
    rw [List.append_assoc, List.cons_append, List.cons_append] at ih
    rw [List.append_assoc, List.cons_append]
    exact .lineEnd ih

theorem append_left {s t : Text} (h : Rewritten s t) (u : Text) : Rewritten (u ++ s) (u ++ t) := by
  induction h with
  | same => exact .same
  | lineEnd _ ih =>
    rw [← List.append_assoc] at ih ⊢
    exact .lineEnd ih

theorem ofText (t : Text) : Rewritten t (dropCarriageReturns t) := by
  fun_induction dropCarriageReturns t with
  | case1 t ih =>
    have first : Rewritten ('\r' :: '\n' :: t) ('\n' :: t) := @Rewritten.lineEnd _ [] t .same
    exact first.trans (ih.append_left ['\n'])
  | case2 c t _ ih => exact ih.append_left [c]
  | case3 => exact .same

theorem count {s t : Text} (h : Rewritten s t) {x : Char} (hx : x ≠ '\r') :
    s.count x = t.count x := by
  induction h with
  | same => rfl
  | lineEnd _ ih =>
    rw [ih, List.count_append, List.count_append, List.count_cons_of_ne (Ne.symm hx)]

end Rewritten

end Terminal

namespace Console

/-! ## What is taken -/

/-- How what is taken from the buffer is captured, a reply at a time. -/
inductive Captured : Text → Text → Prop where
  | nothing : Captured [] []
  /-- A reply is taken with the prompt behind it. -/
  | reply {taken text : Text} (before : Captured taken text) (raw : Text) (echoed : Bool) :
    Captured (taken ++ (raw ++ ". ".toList)) (text ++ replyText raw echoed)
  /-- What the pager has shown is taken. -/
  | paged {taken text : Text} (before : Captured taken text) (shown : Text) :
    Captured (taken ++ shown) (text ++ replyText shown true)

/-- The characters of prompts and line ends. -/
def marking : Text := ". \n\r".toList

theorem count_replyText (raw : Text) (echoed : Bool) {x : Char} (hx : x ∉ marking) :
    (replyText raw echoed).count x = raw.count x := by
  have prompt : (". ".toList).count x = 0 := by
    apply List.count_eq_zero.mpr
    exact fun m => hx (List.mem_append_left "\n\r".toList m)
  have lineFeed : (['\n'] : Text).count x = 0 := by
    apply List.count_eq_zero.mpr
    intro m
    rw [List.mem_singleton.mp m] at hx
    exact hx (by decide)
  rw [replyText, List.count_append, List.count_append]
  split <;> split <;> simp only [prompt, lineFeed, List.count_nil] <;> omega

theorem Captured.count {taken text : Text} (h : Captured taken text) {x : Char}
    (hx : x ∉ marking) : taken.count x = text.count x := by
  induction h with
  | nothing => rfl
  | reply _ raw echoed ih =>
    have prompt : (". ".toList).count x = 0 := by
      apply List.count_eq_zero.mpr
      exact fun m => hx (List.mem_append_left "\n\r".toList m)
    rw [List.count_append, List.count_append, List.count_append, count_replyText raw echoed hx, ih,
      prompt, Nat.add_zero]
  | paged _ shown ih =>
    rw [List.count_append, List.count_append, count_replyText shown true hx, ih]

/-- At a prompt, the prompt is all that is left out. -/
theorem withoutPrompt_append_prompt {buffer : Text} (ready : atPrompt buffer = true) :
    withoutPrompt buffer ++ ". ".toList = buffer := by
  obtain ⟨front, rfl⟩ := Text.endsWith_iff.mp ready
  have cut : front ++ readyPrompt = (front ++ ['\n']) ++ ". ".toList := by
    rw [List.append_assoc]
    rfl
  rw [cut, withoutPrompt_append]

/-! ## Accounts -/

variable {σ : Type} {heard : Text → Host σ → Prop} {before pending : Text} {c c' : Call σ}

/-- Some text has been heard of the channel, and it is, behind what was in the buffer `before`, what
is captured, the pages `pending`, and what is in the buffer. -/
def Accounts (heard : Text → Host σ → Prop) (before pending : Text) (c : Call σ) : Prop :=
  ∃ delivered taken, heard delivered c.host ∧
    Terminal.Rewritten (before ++ delivered) (taken ++ (pending ++ c.buffer)) ∧
    Captured taken c.capture.text

namespace Accounts

/-- **At a prompt** what is pending and what is in the buffer is taken as one reply. -/
theorem prompt (h : Accounts heard before pending c) (ready : atPrompt c.buffer = true)
    (echoed : Bool) :
    Accounts heard before [] (c.taken.extended (pending ++ withoutPrompt c.buffer) echoed) := by
  obtain ⟨delivered, taken, all, rewritten, captured⟩ := h
  -- the prompt goes with what is taken, so that the buffer is taken whole
  refine ⟨delivered, _, all, ?_, captured.reply _ echoed⟩
  rw [List.append_assoc pending, withoutPrompt_append_prompt ready]
  show Terminal.Rewritten _ (taken ++ (pending ++ c.buffer) ++ ([] ++ []))
  rwa [List.append_nil, List.append_nil]

/-- **At the pager** what is in the buffer is taken. -/
theorem page (h : Accounts heard before [] c) :
    Accounts heard before [] (c.taken.extended c.buffer true) := by
  obtain ⟨delivered, taken, all, rewritten, captured⟩ := h
  refine ⟨delivered, _, all, ?_, captured.paged c.buffer⟩
  show Terminal.Rewritten _ (taken ++ c.buffer ++ ([] ++ []))
  rwa [List.append_nil, List.append_nil]

theorem dismissed (h : Accounts heard before pending c) :
    Accounts heard before (pending ++ c.buffer) c.taken := by
  obtain ⟨delivered, taken, all, rewritten, captured⟩ := h
  refine ⟨delivered, taken, all, ?_, captured⟩
  show Terminal.Rewritten _ (taken ++ (pending ++ c.buffer ++ []))
  rwa [List.append_nil]

end Accounts

/-! ## Reading and asking -/

variable [LineChannel σ]

/-- What has been heard of a channel grows by what a read delivers, and by nothing else. -/
structure Hearing (heard : Text → Host σ → Prop) : Prop where
  /-- A read adds what it delivers. -/
  reads : ∀ {t : Text} {wait took : Nat} {piece : Option Text} {h h' : Host σ}, heard t h →
    LineChannel.read wait h = .ok ⟨piece, took⟩ h' → heard (t ++ piece.getD []) h'
  /-- A read that fails adds nothing. -/
  fails : ∀ {t : Text} {wait : Nat} {e : TransportError} {h h' : Host σ}, heard t h →
    LineChannel.read wait h = .error e h' → heard t h'
  /-- Nor does a line that is sent. -/
  sends : ∀ {t : Text} {h : Host σ} (line : Text), heard t h →
    heard t (stateOf (LineChannel.sendLine line h))
  /-- Nor does a break. -/
  breaks : ∀ {t : Text} {h : Host σ}, heard t h → heard t (stateOf (LineChannel.sendBreak h))

omit [LineChannel σ] in
/-- Asking changes nothing but the channel and the disk. -/
theorem Accounts.lift {α : Type} {action : Action σ α}
    (same : ∀ {t : Text} {h : Host σ}, heard t h → heard t (stateOf (action h)))
    (h : Accounts heard before pending c) :
    Accounts heard before pending (stateOf (Call.lift action c)) := by
  obtain ⟨delivered, taken, all, rewritten, captured⟩ := h
  have still := same all
  unfold Call.lift
  cases asked : action c.host <;> rw [asked] at still <;>
    exact ⟨delivered, taken, still, rewritten, captured⟩

variable (hearing : Hearing heard)

include hearing

/-- **Reading keeps accounts.** -/
theorem kept_accounts : KeptByReads (Accounts heard before pending) where
  piece := by
    rintro wait c c' piece ⟨delivered, taken, all, rewritten, captured⟩ arrives
    unfold Call.read at arrives
    split at arrives
    case h_2 => exact absurd arrives (by simp)
    rename_i reading host read
    obtain ⟨value, took⟩ := reading
    obtain ⟨rfl, rfl⟩ := EStateM.Result.ok.inj arrives
    refine ⟨delivered ++ piece, taken, hearing.reads all read, ?_, captured⟩
    -- the piece joins the buffer, in which line ends are then rewritten
    have longer := rewritten.append_right piece
    have joined := (Terminal.Rewritten.ofText (c.buffer ++ piece)).append_left (taken ++ pending)
    simp only [List.append_assoc] at longer joined
    exact longer.trans joined
  nothing := by
    rintro wait c c' ⟨delivered, taken, all, rewritten, captured⟩ silence
    unfold Call.read at silence
    split at silence
    case h_2 => exact absurd silence (by simp)
    rename_i reading host read
    obtain ⟨value, took⟩ := reading
    obtain ⟨rfl, rfl⟩ := EStateM.Result.ok.inj silence
    -- a read in vain adds the empty text
    have none := hearing.reads all read
    rw [Option.getD_none, List.append_nil] at none
    exact ⟨delivered, taken, none, rewritten, captured⟩
  failed := by
    rintro wait c c' e ⟨delivered, taken, all, rewritten, captured⟩ fails
    unfold Call.read at fails
    split at fails
    case h_1 => exact absurd fails (by simp)
    rename_i e' host read
    obtain ⟨rfl, rfl⟩ := EStateM.Result.error.inj fails
    exact ⟨delivered, taken, hearing.fails all read, rewritten, captured⟩

/-- **A run keeps accounts.** -/
theorem accounts_invariant : RunInvariant (Accounts heard before) where
  reads _ := kept_accounts hearing
  sends line h := h.lift (hearing.sends line)
  breaks h := h.lift hearing.breaks
  prompt echoed h ready := h.prompt ready echoed
  page h := h.page
  dismissed h := h.dismissed
  listed _ _ h := h
  coded _ h := h

/-- What has been heard when a run is over, as it is accounted for. Pages are pending only behind a
run that failed while it broke off. -/
theorem run_accounts (chunk : Chunk) {h : Host (Console σ)}
    (begins : heard [] ⟨h.guest.channel, h.disk⟩) :
    ∃ delivered taken pending,
      heard delivered ⟨(run chunk h).2.guest.channel, (run chunk h).2.disk⟩ ∧
      Terminal.Rewritten (h.guest.buffer ++ delivered)
        (taken ++ (pending ++ (run chunk h).2.guest.buffer)) ∧
      Captured taken (run chunk h).1.capture.text ∧
      ListedFromText (run chunk h).1.capture ∧
      (pending ≠ [] → (run chunk h).1.failure ≠ none ∧ Stopped (run chunk h).1.capture) := by
  have start : Accounts heard h.guest.buffer [] (Call.ofHost h) := by
    refine ⟨[], [], begins, ?_, .nothing⟩
    rw [List.append_nil]
    exact .same
  -- two invariants of the same run
  have nothing : ListedFromText (Call.ofHost h).capture := List.forall_mem_nil _
  obtain ⟨-, c', listed, same, -⟩ := listed_invariant.run chunk nothing
  rw [← same] at listed
  obtain ⟨pending, c, ⟨delivered, taken, all, rewritten, replies⟩, captured, left, stopped⟩ :=
    (accounts_invariant hearing).run chunk start
  refine ⟨delivered, taken, pending, ?_, ?_, ?_, listed, stopped⟩
  · rw [left]
    exact all
  · rw [left]
    exact rewritten
  · rw [captured]
    exact replies

end Console

end DoRunner
