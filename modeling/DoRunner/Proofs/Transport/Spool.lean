import DoRunner.Proofs.Transport.Orderly

/-!
# A channel with a pace

A spool prints given texts for the requests made of it, and delivers what is printed at a given
pace, so many characters at a read. It is an orderly channel on which late answers can be looked at.
-/

namespace DoRunner

namespace Ledger

/-- The ledger after one more request. -/
def answered (l : Ledger) (reply : Text) : Ledger where
  printed := l.printed ++ [reply]
  owed := l.owed ++ reply
  isEnd := by
    obtain ⟨front, whole⟩ := l.isEnd
    refine ⟨front, ?_⟩
    rw [List.flatten_append, ← whole, List.flatten_singleton, List.append_assoc]

/-- The ledger after as many characters more. -/
def delivering (l : Ledger) (n : Nat) : Ledger where
  printed := l.printed
  owed := l.owed.drop n
  isEnd := (List.drop_suffix n l.owed).trans l.isEnd

/-- Nothing has been asked. -/
def empty : Ledger := ⟨[], [], List.suffix_refl []⟩

theorem advances_answered (l : Ledger) (reply : Text) : l.Advances [reply] [] (l.answered reply) :=
  ⟨rfl, by rw [List.flatten_singleton, List.nil_append]; rfl⟩

theorem advances_delivering (l : Ledger) (n : Nat) :
    l.Advances [] (l.owed.take n) (l.delivering n) := by
  refine ⟨(List.append_nil _).symm, ?_⟩
  rw [List.flatten_nil, List.append_nil]
  exact (List.take_append_drop n l.owed).symm

end Ledger

/-- A channel that delivers what it prints at a pace. -/
structure Spool where
  /-- What is printed for the requests still to come. -/
  script : List Text
  /-- How many characters the reads still to come deliver at most. -/
  pace : List Nat
  /-- What has been printed and what is owed. -/
  ledger : Ledger

namespace Spool

/-- The spool with the next text printed. -/
def printing (s : Spool) : Spool :=
  { s with script := s.script.tail, ledger := s.ledger.answered (s.script.headD []) }

/-- A read. One that delivers nothing takes all the time it has. -/
def read (wait : Nat) : Action Spool (Timed (Option Text)) := fun h =>
  match h.guest.pace with
  | [] => .ok ⟨none, wait⟩ h
  | n :: pace =>
    if h.guest.ledger.owed.take n = [] then .ok ⟨none, wait⟩ ⟨{ h.guest with pace }, h.disk⟩
    else
      .ok ⟨some (h.guest.ledger.owed.take n), 0⟩
        ⟨{ h.guest with pace, ledger := h.guest.ledger.delivering n }, h.disk⟩

instance : LineChannel Spool where
  sendLine _ h := .ok () ⟨h.guest.printing, h.disk⟩
  sendBreak h := .ok () ⟨h.guest.printing, h.disk⟩
  read := read
  close h := .ok () h
  backlog s := s.pace.length
  backlog_lt := by
    intro h h' piece took delivered
    unfold read at delivered
    split at delivered
    · exact absurd delivered (by simp)
    · rename_i n pace paced
      split at delivered
      · exact absurd delivered (by simp)
      · obtain ⟨-, rfl⟩ := EStateM.Result.ok.inj delivered
        rw [paced]
        exact Nat.lt_succ_self _

instance : OrderlyChannel Spool where
  ledger := Spool.ledger
  sends _ h := ⟨_, h.guest.ledger.advances_answered _⟩
  breaks h := ⟨_, h.guest.ledger.advances_answered _⟩
  reads wait h := by
    show Ledger.Read _ h (read wait h)
    unfold read
    split
    · exact .refl _
    · rename_i n pace paced
      split
      · exact .refl _
      · exact h.guest.ledger.advances_delivering n

end Spool

namespace Console

/-! ## Turns that can be foreseen -/

variable {σ : Type} [LineChannel σ] {c c₁ c₂ : Call σ} {line sentinel piece raw raw' : Text}
  {took took' : Nat} {h₁ h₂ h₃ : Host σ}

/-- When the time is over, a reply that has not come to its end is lost. -/
theorem readReply_of_late (busy : atPrompt c.buffer = false) (going : atPager c.buffer = false)
    (late : c.limit ≤ c.elapsed) : readReply c = .error (.timeout "ready prompt") c := by
  have expired : timeLeft c.limit c.elapsed "ready prompt" = .error (.timeout "ready prompt") :=
    if_pos late
  rw [readReply, if_neg (by simp [busy]), if_neg (by simp [going])]
  split
  · rename_i e he
    rw [Except.error.inj (he.symm.trans expired)]
  · rename_i left he
    exact absurd (he.symm.trans expired) (by simp)

/-- A line whose reply arrives at once and whole. -/
theorem turnAt_of_whole (empty : c.buffer = []) (pos : 0 < c.left)
    (sent : LineChannel.sendLine line c.host = .ok () h₁)
    (arrives : LineChannel.read (min c.left readSlice) h₁ = .ok ⟨some piece, took⟩ h₂)
    (whole : appended [] piece = raw ++ ". ".toList) (ready : atPrompt (raw ++ ". ".toList) = true)
    (silence : LineChannel.read 0 h₂ = .ok ⟨none, took'⟩ h₃) :
    turnAt line c = (.prompted raw, Call.noted { c with
      host := h₃, elapsed := c.elapsed + max 1 took + max 1 took' } line raw) := by
  have sends : send line c = .ok () { c with host := h₁ } := by
    rw [send, Call.lift, sent]
  have buffer : ((Call.after { c with host := h₁ } h₂ (max 1 took)).append piece).buffer
      = raw ++ ". ".toList := by
    rw [Call.append, Call.after, empty]
    exact whole
  rw [turnAt, sends]
  dsimp only
  rw [@readReply_of_read σ _ { c with host := h₁ } (some piece) took h₂ empty pos arrives]
  dsimp only
  rw [readReply_of_prompt buffer (by rw [buffer]; exact ready) silence]
  simp only [Call.taken, Call.after, Call.append, empty]

/-- A line of whose reply something arrives, and then the time is over. -/
theorem turnAt_of_part (empty : c.buffer = []) (pos : 0 < c.left)
    (sent : LineChannel.sendLine line c.host = .ok () h₁)
    (arrives : LineChannel.read (min c.left readSlice) h₁ = .ok ⟨some piece, took⟩ h₂)
    (busy : atPrompt (appended [] piece) = false) (going : atPager (appended [] piece) = false)
    (late : c.limit ≤ c.elapsed + max 1 took) :
    turnAt line c = (.lost (.timeout "ready prompt"), { c with
      host := h₂, elapsed := c.elapsed + max 1 took, buffer := appended [] piece }) := by
  have sends : send line c = .ok () { c with host := h₁ } := by
    rw [send, Call.lift, sent]
  have part : (Call.after { c with host := h₁ } h₂ (max 1 took)).append piece = { c with
      host := h₂, elapsed := c.elapsed + max 1 took, buffer := appended [] piece } := by
    rw [Call.append, Call.after, empty]
  rw [turnAt, sends]
  dsimp only
  rw [@readReply_of_read σ _ { c with host := h₁ } (some piece) took h₂ empty pos arrives]
  dsimp only
  rw [part, readReply_of_late busy going late]

/-- A line of whose reply nothing arrives in time. -/
theorem turnAt_of_silence (empty : c.buffer = []) (pos : 0 < c.left)
    (sent : LineChannel.sendLine line c.host = .ok () h₁)
    (silence : LineChannel.read (min c.left readSlice) h₁ = .ok ⟨none, took⟩ h₂)
    (late : c.limit ≤ c.elapsed + max 1 took) :
    turnAt line c = (.lost (.timeout "ready prompt"), { c with
      host := h₂, elapsed := c.elapsed + max 1 took }) := by
  have sends : send line c = .ok () { c with host := h₁ } := by
    rw [send, Call.lift, sent]
  have busy : atPrompt (Call.after { c with host := h₁ } h₂ (max 1 took)).buffer = false := by
    rw [Call.after, empty]
    exact atPrompt_nil
  have going : atPager (Call.after { c with host := h₁ } h₂ (max 1 took)).buffer = false := by
    rw [Call.after, empty]
    exact atPager_nil
  rw [turnAt, sends]
  dsimp only
  rw [@readReply_of_read σ _ { c with host := h₁ } none took h₂ empty pos silence]
  dsimp only
  rw [readReply_of_late busy going late]
  rfl

/-- A spool with the pace for a whole reply, and for nothing behind it. -/
theorem turnAt_of_pace {c : Call Spool} {n : Nat} {pace : List Nat} (empty : c.buffer = [])
    (pos : 0 < c.left) (paced : c.host.guest.pace = n :: 0 :: pace)
    (next : c.host.guest.printing.ledger.owed.take n = piece) (some : piece ≠ [])
    (whole : appended [] piece = raw ++ ". ".toList)
    (ready : atPrompt (raw ++ ". ".toList) = true) (line : Text) :
    turnAt line c = (.prompted raw, Call.noted { c with
      host := ⟨{ c.host.guest.printing with
        pace, ledger := c.host.guest.printing.ledger.delivering n }, c.host.disk⟩
      elapsed := c.elapsed + 1 + 1 } line raw) := by
  -- printing does not change the pace
  have paced₁ : c.host.guest.printing.pace = n :: 0 :: pace := paced
  have arrives : LineChannel.read (min c.left readSlice)
      (⟨c.host.guest.printing, c.host.disk⟩ : Host Spool) = .ok ⟨Option.some piece, 0⟩
        ⟨{ c.host.guest.printing with
          pace := 0 :: pace, ledger := c.host.guest.printing.ledger.delivering n }, c.host.disk⟩ := by
    show Spool.read _ _ = _
    rw [Spool.read, paced₁]
    dsimp only
    rw [next, if_neg some]
  exact turnAt_of_whole empty pos rfl arrives whole ready rfl

/-- A run whose first line is lost. -/
theorem run_of_lost {chunk : Chunk} {lines : List Text}
    (all : chunk.submissionLines = line :: lines ++ [sentinel]) {h : Host (Console σ)}
    {e : TransportError} (lost : turnAt line (Call.ofHost h) = (.lost e, c)) :
    run chunk h = (⟨c.capture, some e⟩, c.toHost) := by
  have ran := runLines_concat (line :: lines) sentinel (Call.ofHost h)
  rw [List.cons_append, exchangeAll_cons, exchange_eq, lost] at ran
  rw [run, all, List.cons_append, ran]

/-- A run of one line and the sentinel. -/
theorem run_of_prompted {chunk : Chunk} (all : chunk.submissionLines = [line, sentinel])
    {h : Host (Console σ)} (first : turnAt line (Call.ofHost h) = (.prompted raw, c₁))
    (quiet : ReturnCode.first? raw = none) (second : turnAt sentinel c₁ = (.prompted raw', c₂)) :
    ∃ code, run chunk h = (⟨{ c₂.capture with returnCode := code }, none⟩, c₂.toHost) := by
  have ran := runLines_concat [line] sentinel (Call.ofHost h)
  rw [List.singleton_append, exchangeAll_cons, exchange_eq, first] at ran
  dsimp only at ran
  rw [quiet] at ran
  dsimp only at ran
  rw [exchangeAll_cons, exchange_eq, second] at ran
  dsimp only at ran
  rw [run, all]
  cases found : ReturnCode.first? raw' with
  | none =>
    rw [found] at ran
    obtain ⟨code, ran⟩ := ran
    rw [ran]
    exact ⟨code, rfl⟩
  | some _ =>
    rw [found] at ran
    obtain ⟨code, ran⟩ := ran
    rw [ran]
    exact ⟨code, rfl⟩

/-- Where nothing has arrived, nothing is read away. -/
theorem drain_of_silence {h h' : Host σ} (silence : LineChannel.read 0 h = .ok ⟨none, took⟩ h') :
    drain h = h' := by
  rw [drain, silence]

/-- What has arrived is read away. -/
theorem drain_of_piece {h h' : Host σ}
    (arrives : LineChannel.read 0 h = .ok ⟨some piece, took⟩ h') : drain h = drain h' := by
  rw [drain, arrives]

end Console

end DoRunner
