import DoRunner.Proofs.Echo.Prompts
import DoRunner.Proofs.Transport.Exchange
import DoRunner.Transport.Recorded

/-!
# A console that answers

A channel answers a line when it takes the line and then delivers, within the time that is left,
the answer with the prompt behind it, all at once, and nothing more after that. `Answers` says this
of one line after another, with the time that each read uses up; how a channel comes to do so is its
own affair.

A call over such a channel goes as one would have it. The reply to each line is what the console
makes of the answer; the capture grows by it; and the first return code ends the call, with the
lines after it not sent.
-/

namespace DoRunner.Console

variable {σ : Type} [LineChannel σ]

/-- The channel delivers a piece of output, after any number of reads in vain. The numbers are the
time left before and after. -/
inductive Delivers (piece : Text) : Nat → Host σ → Nat → Host σ → Prop where
  /-- The next read delivers it. -/
  | now {left took : Nat} {h h' : Host σ} (pos : 0 < left)
      (arrives : LineChannel.read (min left readSlice) h = .ok ⟨some piece, took⟩ h') :
      Delivers piece left h (left - max 1 took) h'
  /-- Nothing comes at first. -/
  | later {left took left' : Nat} {h h₁ h' : Host σ} (pos : 0 < left)
      (nothing : LineChannel.read (min left readSlice) h = .ok ⟨none, took⟩ h₁)
      (rest : Delivers piece (left - max 1 took) h₁ left' h') :
      Delivers piece left h left' h'

/-- The channel answers lines, one after another. -/
inductive Answers : List Exchange → Nat → Host σ → Nat → Host σ → Prop where
  /-- No lines are sent. -/
  | nil {left : Nat} {h : Host σ} : Answers [] left h left h
  /-- A line is taken, its answer delivered, and then there is silence. -/
  | cons {x : Exchange} {xs : List Exchange} {left left₂ took left' : Nat} {h h₁ h₂ h₃ h' : Host σ}
      (taken : LineChannel.sendLine x.line h = .ok () h₁)
      (delivered : Delivers (x.answer ++ ". ".toList) left h₁ left₂ h₂)
      (silence : LineChannel.read 0 h₂ = .ok ⟨none, took⟩ h₃)
      (rest : Answers xs (left₂ - max 1 took) h₃ left' h') :
      Answers (x :: xs) left h left' h'

/-! ## Prompts -/

omit [LineChannel σ] in
theorem timeLeft_of_pos {c : Call σ} (h : 0 < c.left) (waitingFor : String) :
    timeLeft c.limit c.elapsed waitingFor = .ok c.left := by
  unfold Call.left at h ⊢
  rw [timeLeft, if_neg (by omega)]

theorem appended_answer {x : Exchange} (plain : x.IsPlain) :
    appended [] (x.answer ++ ". ".toList) = x.received ++ ". ".toList := by
  have printed : '\r' ∉ Text.ended x.printed ++ ". ".toList := by
    intro m
    rcases List.mem_append.mp m with m | m
    · rcases Text.mem_ended m with he | ⟨line, hl, m⟩
      · exact absurd he (by decide)
      · exact (plain line hl).1 m
    · exact absurd m (by decide)
  rw [appended, List.nil_append, Exchange.answer, List.append_assoc, List.cons_append,
    Terminal.dropCarriageReturns_chomp x.oneLine, Terminal.dropCarriageReturns_of_notMem printed,
    Exchange.received, List.append_assoc, List.cons_append]

/-- What is received ends its last line. -/
theorem received_ends (x : Exchange) : ∃ front, x.received = front ++ ['\n'] := by
  rcases List.eq_nil_or_concat x.printed with h | ⟨front, last, h⟩
  · exact ⟨Terminal.chomp x.line, by rw [Exchange.received, h]; rfl⟩
  · refine ⟨Terminal.chomp x.line ++ '\n' :: (Text.ended front ++ last), ?_⟩
    rw [Exchange.received, h, List.concat_eq_append, Text.ended_append, Text.ended_cons]
    simp [Text.ended]

theorem atPrompt_received (x : Exchange) : atPrompt (x.received ++ ". ".toList) = true := by
  obtain ⟨front, hfront⟩ := received_ends x
  rw [atPrompt, hfront, List.append_assoc]
  exact Text.endsWith_append readyPrompt front

theorem withoutPrompt_append (raw : Text) : withoutPrompt (raw ++ ". ".toList) = raw := by
  unfold withoutPrompt
  simp

theorem replyText_received (x : Exchange) :
    replyText x.received true = ". ".toList ++ x.received := by
  obtain ⟨front, hfront⟩ := received_ends x
  have ended : Text.endsWith ['\n'] x.received = true := by
    rw [hfront]
    exact Text.endsWith_append ['\n'] front
  rw [replyText, if_pos rfl, if_pos ended, List.append_nil]

/-! ## One reply -/

/-- With nothing read yet, the reply is what the next read leads to. -/
theorem readReply_of_read {c : Call σ} {piece : Option Text} {took : Nat} {h : Host σ}
    (empty : c.buffer = []) (pos : 0 < c.left)
    (arrives : LineChannel.read (min c.left readSlice) c.host = .ok ⟨piece, took⟩ h) :
    readReply c = match piece with
      | some piece => readReply ((c.after h (max 1 took)).append piece)
      | none => readReply (c.after h (max 1 took)) := by
  have notPrompt : ¬ atPrompt c.buffer = true := by
    rw [empty, atPrompt_nil]
    decide
  have notPager : ¬ atPager c.buffer = true := by
    rw [empty, atPager_nil]
    decide
  have reads : Call.read (min c.left readSlice) c = .ok piece (c.after h (max 1 took)) := by
    rw [Call.read, arrives]
  rw [readReply, if_neg notPrompt, if_neg notPager]
  split
  · rename_i e he
    rw [timeLeft_of_pos pos] at he
    exact absurd he (by simp)
  · rename_i left he
    rw [timeLeft_of_pos pos] at he
    obtain rfl := Except.ok.inj he
    rw [reads]
    cases piece <;> rfl

/-- At a prompt with silence behind it, the reply is what came before the prompt. -/
theorem readReply_of_prompt {c : Call σ} {took : Nat} {h : Host σ} {raw : Text}
    (ready : c.buffer = raw ++ ". ".toList) (atEnd : atPrompt c.buffer = true)
    (silence : LineChannel.read 0 c.host = .ok ⟨none, took⟩ h) :
    readReply c = .ok (.prompt raw) (c.after h (max 1 took)).taken := by
  have reads : Call.read 0 c = .ok none (c.after h (max 1 took)) := by
    rw [Call.read, silence]
  rw [readReply, if_pos atEnd, reads]
  dsimp only [Call.after]
  rw [ready, withoutPrompt_append]

/-- **A delivered answer is the reply.** -/
theorem readReply_of_delivers {x : Exchange} (plain : x.IsPlain) {left₂ took : Nat}
    {h₂ h₃ : Host σ} {c : Call σ} (empty : c.buffer = [])
    (delivered : Delivers (x.answer ++ ". ".toList) c.left c.host left₂ h₂)
    (silence : LineChannel.read 0 h₂ = .ok ⟨none, took⟩ h₃) :
    ∃ elapsed, readReply c = .ok (.prompt x.received) { c with host := h₃, elapsed } ∧
      c.limit - elapsed = left₂ - max 1 took := by
  generalize hleft : c.left = left at delivered
  generalize hhost : c.host = host at delivered
  induction delivered generalizing c with
  | @now left took' host host' pos arrives =>
    rw [← hleft, ← hhost] at arrives
    have buffer : ((c.after host' (max 1 took')).append (x.answer ++ ". ".toList)).buffer
        = x.received ++ ". ".toList := by
      rw [Call.append, Call.after, empty, appended_answer plain]
    refine ⟨c.elapsed + max 1 took' + max 1 took, ?_, ?_⟩
    · rw [readReply_of_read empty (by omega) arrives]
      dsimp only
      rw [readReply_of_prompt buffer (by rw [buffer]; exact atPrompt_received x) silence]
      simp only [Call.append, Call.after, Call.taken, empty]
    · rw [← hleft, Call.left]
      omega
  | @later left took' left₂ host host₁ host' pos nothing rest ih =>
    rw [← hleft, ← hhost] at nothing
    have hleft₁ : (c.after host₁ (max 1 took')).left = left - max 1 took' := by
      rw [← hleft]
      simp only [Call.left, Call.after]
      omega
    obtain ⟨elapsed, hreply, htime⟩ :=
      ih (c := c.after host₁ (max 1 took')) empty silence hleft₁ rfl
    refine ⟨elapsed, ?_, htime⟩
    rw [readReply_of_read empty (by omega) nothing]
    exact hreply

/-! ## A call -/

/-- The capture with exchanges added to it. -/
def logged (capture : RawCapture) (xs : List Exchange) : RawCapture :=
  { capture with
    text := capture.text ++ xs.flatMap fun x => ". ".toList ++ x.received
    transcript := capture.transcript ++ xs.map fun x => ⟨x.line, x.received⟩ }

omit [LineChannel σ] in
theorem logged_cons (capture : RawCapture) (x : Exchange) (xs : List Exchange) :
    logged (logged capture [x]) xs = logged capture (x :: xs) := by
  simp [logged]

/-- The lines of a capture that belong to an exchange. -/
def shown (x : Exchange) : List Text := Echo.prompted (Terminal.chomp x.line) :: x.printed

omit [LineChannel σ] in
theorem text_logged (xs : List Exchange) : (logged .empty xs).text = Text.ended (xs.flatMap shown) := by
  have text : (logged .empty xs).text = xs.flatMap fun x => ". ".toList ++ x.received := rfl
  rw [text]
  clear text
  induction xs with
  | nil => rfl
  | cons x xs ih =>
    rw [List.flatMap_cons, List.flatMap_cons, Text.ended_append, ih, shown, Text.ended_cons]
    rfl

/-- **A line that is answered** is captured with what was received, and fails if the answer carries
a return code. -/
theorem exchange_of_answers {x : Exchange} (plain : x.IsPlain) {left₂ took : Nat}
    {h₁ h₂ h₃ : Host σ} {c : Call σ} (empty : c.buffer = [])
    (taken : LineChannel.sendLine x.line c.host = .ok () h₁)
    (delivered : Delivers (x.answer ++ ". ".toList) c.left h₁ left₂ h₂)
    (silence : LineChannel.read 0 h₂ = .ok ⟨none, took⟩ h₃) (sentinel : Text) :
    ∃ elapsed, exchange x.line sentinel c
        = .ok x.code? { c with host := h₃, elapsed, capture := logged c.capture [x] } ∧
      c.limit - elapsed = left₂ - max 1 took := by
  have sent : send x.line c = .ok () { c with host := h₁ } := by
    rw [send, Call.lift, taken]
  obtain ⟨elapsed, hreply, htime⟩ :=
    readReply_of_delivers plain (c := { c with host := h₁ }) empty delivered silence
  refine ⟨elapsed, ?_, htime⟩
  unfold exchange
  simp only [bind, EStateM.bind, pure, EStateM.pure, sent, hreply, capture, record, captured,
    RawCapture.extend, RawCapture.record, replyText_received, Exchange.first?_received, logged,
    List.flatMap_singleton, List.map_singleton]

/-- **Lines that are answered** are sent up to the first that fails, and the code of that one is
what comes of them. -/
theorem exchangeAll_of_answers {xs : List Exchange} (plain : ∀ x ∈ xs, x.IsPlain) {left' : Nat}
    {h' : Host σ} {c : Call σ} (empty : c.buffer = [])
    (answers : Answers (Exchange.upToFailure xs) c.left c.host left' h') (sentinel : Text) :
    ∃ elapsed, exchangeAll sentinel (xs.map (·.line)) c
        = .ok (Exchange.failure? xs)
          { c with host := h', elapsed, capture := logged c.capture (Exchange.upToFailure xs) } ∧
      c.limit - elapsed = left' := by
  induction xs generalizing c with
  | nil =>
    cases answers
    refine ⟨c.elapsed, ?_, rfl⟩
    simp [exchangeAll, Exchange.failure?, Exchange.upToFailure, logged, pure, EStateM.pure]
  | cons x xs ih =>
    rw [Exchange.upToFailure] at answers
    cases answers with
    | cons taken delivered silence rest =>
      obtain ⟨elapsed, hexchange, htime⟩ := exchange_of_answers
        (plain x List.mem_cons_self) empty taken delivered silence sentinel
      rw [Exchange.failure?, List.findSome?_cons, Exchange.upToFailure]
      cases hcode : x.code? with
      | some code =>
        rw [hcode] at rest hexchange
        rw [if_pos (by rfl)] at rest
        cases rest
        refine ⟨elapsed, ?_, htime⟩
        simp only [List.map_cons, exchangeAll, bind, EStateM.bind, hexchange, pure, EStateM.pure]
        rfl
      | none =>
        rw [hcode] at rest hexchange
        rw [if_neg (by decide), ← htime] at rest
        obtain ⟨elapsed', hall, htime'⟩ :=
          ih (fun y m => plain y (List.mem_cons_of_mem _ m))
            (c := { c with host := _, elapsed, capture := logged c.capture [x] }) empty rest
        refine ⟨elapsed', ?_, htime'⟩
        rw [logged_cons] at hall
        simp only [List.map_cons, exchangeAll, bind, EStateM.bind, hexchange, hall]
        rfl

theorem Answers.split {xs ys : List Exchange} {left left' : Nat} {h h' : Host σ}
    (answers : Answers (xs ++ ys) left h left' h') :
    ∃ left₁ h₁, Answers xs left h left₁ h₁ ∧ Answers ys left₁ h₁ left' h' := by
  induction xs generalizing left h with
  | nil => exact ⟨left, h, .nil, answers⟩
  | cons x xs ih =>
    cases answers with
    | cons taken delivered silence rest =>
      obtain ⟨left₁, h₁, front, back⟩ := ih rest
      exact ⟨left₁, h₁, .cons taken delivered silence front, back⟩

/-- **A chunk whose lines are answered.** The lines up to the first that fails are captured, the
sentinel among them when none fails, and the return code is that of the line that fails. -/
theorem run_of_answers {chunk : Chunk} {xs : List Exchange} {z : Exchange}
    (lines : chunk.submissionLines = xs.map (·.line) ++ [z.line]) (plain : ∀ x ∈ xs, x.IsPlain)
    (plainLast : z.IsPlain) (succeeds : z.code? = none) {h : Host (Console σ)}
    (empty : h.guest.buffer = []) {left' : Nat} {h' : Host σ}
    (answers : Answers (Exchange.upToFailure (xs ++ [z])) h.guest.timeout
      ⟨h.guest.channel, h.disk⟩ left' h') :
    run chunk h =
      (⟨{ logged .empty (Exchange.upToFailure (xs ++ [z])) with
            returnCode := (Exchange.failure? xs).getD 0 }, none⟩,
        ⟨⟨h'.guest, h.guest.timeout, []⟩, h'.disk⟩) := by
  have last : (xs.map (·.line) ++ [z.line]).getLast? = some z.line := by
    rw [List.getLast?_append]
    rfl
  have front : (xs.map (·.line) ++ [z.line]).dropLast = xs.map (·.line) := List.dropLast_concat
  rw [run, lines, runLines, last, front]
  cases hfail : Exchange.failure? xs with
  | some code =>
    rw [Exchange.upToFailure_of_some hfail] at answers ⊢
    obtain ⟨elapsed, hall, -⟩ :=
      exchangeAll_of_answers plain (c := Call.ofHost h) empty answers z.line
    rw [hfail] at hall
    simp only [bind, EStateM.bind, hall, captured]
    simp only [Call.toHost, Call.ofHost, empty, Option.getD_some]
  | none =>
    have statements := Exchange.upToFailure_eq_self hfail
    rw [Exchange.upToFailure_concat hfail succeeds] at answers ⊢
    obtain ⟨left₁, h₁, sent, closing⟩ := answers.split
    rw [← statements] at sent
    obtain ⟨elapsed, hall, htime⟩ :=
      exchangeAll_of_answers plain (c := Call.ofHost h) empty sent z.line
    rw [hfail, statements] at hall
    cases closing with
    | cons taken delivered silence rest =>
      cases rest
      rw [← htime] at delivered
      obtain ⟨elapsed', hexchange, -⟩ := exchange_of_answers plainLast
        (c := { Call.ofHost h with host := h₁, elapsed, capture := logged .empty xs })
        empty taken delivered silence z.line
      have grown : logged (logged .empty xs) [z] = logged .empty (xs ++ [z]) := by
        simp [logged]
      rw [grown] at hexchange
      dsimp only at hexchange
      have nothing : (Call.ofHost h).capture = .empty := rfl
      rw [nothing] at hall
      simp only [bind, EStateM.bind, hall, hexchange, pure, EStateM.pure]
      simp only [Call.toHost, Call.ofHost, empty, Option.getD_none]
      rfl

/-! ## What the channel was asked -/

theorem Delivers.recorded {piece : Text} {left left' : Nat} {h h' : Host σ}
    (delivered : Delivers piece left h left' h') (calls : List PeerCall) :
    Delivers piece left (⟨⟨h.guest, calls⟩, h.disk⟩ : Host (Recorded σ)) left'
      ⟨⟨h'.guest, calls⟩, h'.disk⟩ := by
  have silently : ∀ {wait : Nat} {b : Timed (Option Text)} {h₁ h₂ : Host σ},
      LineChannel.read wait h₁ = .ok b h₂ →
      LineChannel.read wait (⟨⟨h₁.guest, calls⟩, h₁.disk⟩ : Host (Recorded σ))
        = .ok b ⟨⟨h₂.guest, calls⟩, h₂.disk⟩ := by
    intro wait b h₁ h₂ hr
    simp only [LineChannel.read, Recorded.silently, Action.within, hr]
  induction delivered with
  | now pos arrives => exact .now pos (silently arrives)
  | later pos nothing _ ih => exact .later pos (silently nothing) ih

/-- **A channel that answers lines is sent those lines and asked nothing else.** -/
theorem Answers.recorded {xs : List Exchange} {left left' : Nat} {h h' : Host σ}
    (answers : Answers xs left h left' h') (calls : List PeerCall) :
    Answers xs left (⟨⟨h.guest, calls⟩, h.disk⟩ : Host (Recorded σ)) left'
      ⟨⟨h'.guest, (xs.map fun x => .sendLine x.line).reverse ++ calls⟩, h'.disk⟩ := by
  induction answers generalizing calls with
  | nil => exact .nil
  | @cons x xs left left₂ took left' h h₁ h₂ h₃ h' taken delivered silence _ ih =>
    have sent : LineChannel.sendLine x.line (⟨⟨h.guest, calls⟩, h.disk⟩ : Host (Recorded σ))
        = .ok () ⟨⟨h₁.guest, .sendLine x.line :: calls⟩, h₁.disk⟩ := by
      simp only [LineChannel.sendLine, Recorded.noting, Recorded.note, Recorded.silently,
        Action.within, bind, EStateM.bind, taken]
    have quiet : LineChannel.read 0
        (⟨⟨h₂.guest, .sendLine x.line :: calls⟩, h₂.disk⟩ : Host (Recorded σ))
          = .ok ⟨none, took⟩ ⟨⟨h₃.guest, .sendLine x.line :: calls⟩, h₃.disk⟩ := by
      simp only [LineChannel.read, Recorded.silently, Action.within, silence]
    have rest := ih (.sendLine x.line :: calls)
    rw [List.map_cons, List.reverse_cons, List.append_assoc]
    exact .cons sent (delivered.recorded _) quiet rest

end DoRunner.Console

/-! ## A channel that answers -/

namespace DoRunner

/-- A channel that prints given lines for the lines sent to it. -/
structure Teletype where
  /-- What is printed for the lines still to come. -/
  script : List (List Text)
  /-- What has been printed and not been read. -/
  unread : Option Text

namespace Teletype

instance : LineChannel Teletype where
  sendLine line h :=
    match h.guest.script with
    | [] => .ok () h
    | printed :: script =>
      .ok () ⟨⟨script, some (line ++ '\n' :: Text.ended printed ++ ". ".toList)⟩, h.disk⟩
  sendBreak h := .ok () h
  read wait h :=
    match h.guest.unread with
    | some piece => .ok ⟨some piece, 0⟩ ⟨{ h.guest with unread := none }, h.disk⟩
    | none => .ok ⟨none, wait⟩ h
  close h := .ok () h
  backlog t := if t.unread.isSome then 1 else 0
  backlog_lt := by
    intro h h' piece took delivered
    split at delivered
    · rename_i hu
      simp only [EStateM.Result.ok.injEq] at delivered
      rw [hu, ← delivered.2]
      exact Nat.one_pos
    · simp at delivered

/-- **A teletype answers,** given two microseconds for each line. -/
theorem answers (xs : List Exchange) (more : List (List Text)) (disk : Disk) (left : Nat)
    (time : 2 * xs.length ≤ left) :
    ∃ left', Console.Answers xs left (⟨⟨xs.map (·.printed) ++ more, none⟩, disk⟩ : Host Teletype)
      left' ⟨⟨more, none⟩, disk⟩ := by
  induction xs generalizing left with
  | nil => exact ⟨left, .nil⟩
  | cons x xs ih =>
    rw [List.length_cons] at time
    obtain ⟨left', rest⟩ := ih (left - 1 - 1) (by omega)
    let delivered : Host Teletype :=
      ⟨⟨xs.map (·.printed) ++ more, some (x.answer ++ ". ".toList)⟩, disk⟩
    let quiet : Host Teletype := ⟨⟨xs.map (·.printed) ++ more, none⟩, disk⟩
    have arrives : Console.Delivers (x.answer ++ ". ".toList) left delivered (left - 1) quiet :=
      @Console.Delivers.now Teletype _ _ left 0 delivered quiet (by omega) rfl
    exact ⟨left', @Console.Answers.cons Teletype _ x xs left _ 0 left' _ delivered quiet quiet _ rfl
      arrives rfl rest⟩

end Teletype

end DoRunner
