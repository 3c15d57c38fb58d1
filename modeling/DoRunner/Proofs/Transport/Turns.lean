import DoRunner.Proofs.Transport.Reading

/-!
# Turns

A call goes from line to line. A **turn** is one line sent and what became of it: the prompt came
back, or the pager held its output back, or it was lost, whether before it was sent or behind it.
What is captured of a turn is captured when the turn is over.

Sending all lines of a chunk is one thing for the statements and for the sentinel behind them
(`runLines_concat`).
-/

namespace DoRunner.Console

/-- What became of a line. -/
inductive Fate where
  /-- The prompt came back behind its output. -/
  | prompted (raw : Text)
  /-- The pager stopped its output. -/
  | paged (shown : Text)
  /-- It could not be sent, or its reply could not be read to the end. -/
  | lost (e : TransportError)
deriving DecidableEq, Repr

/-- A line that was sent, or was to be sent, and what became of it. -/
structure Turn where
  line : Text
  fate : Fate
deriving DecidableEq, Repr

/-- The line's prompt came back, with no return code in what was printed. -/
def Turn.Succeeded (turn : Turn) : Prop :=
  ∃ raw, turn.fate = .prompted raw ∧ ReturnCode.first? raw = none

/-- The pager stopped the output of the line. -/
def Turn.Paged (turn : Turn) : Prop := ∃ shown, turn.fate = .paged shown

variable {σ : Type}

/-- The call with a reply captured, as the reply to a line. -/
def Call.noted (c : Call σ) (line raw : Text) : Call σ :=
  { c with capture := (c.capture.extend (replyText raw true)).record line raw }

/-- The call with another return code. -/
def Call.withCode (c : Call σ) (code : Int) : Call σ :=
  { c with capture := { c.capture with returnCode := code } }

variable [LineChannel σ]

/-- What becomes of a line, and the call behind it. -/
def turnAt (line : Text) (c : Call σ) : Fate × Call σ :=
  match send line c with
  | .error e c' => (.lost e, c')
  | .ok () c' =>
    match readReply c' with
    | .error e c'' => (.lost e, c'')
    | .ok (.prompt raw) c'' => (.prompted raw, c''.noted line raw)
    | .ok (.paged shown) c'' => (.paged shown, c''.noted line shown)

/-- **A line is exchanged in one turn,** and only where the pager stops it does something follow. -/
theorem exchange_eq (line sentinel : Text) (c : Call σ) :
    exchange line sentinel c = match turnAt line c with
      | (.lost e, c') => .error e c'
      | (.prompted raw, c') => .ok (ReturnCode.first? raw) c'
      | (.paged _, c') => match breakOff sentinel c' with
        | .ok code c'' => .ok (some code) c''
        | .error e c'' => .error e c'' := by
  unfold exchange turnAt
  simp only [bind, EStateM.bind]
  cases send line c with
  | error e c' => rfl
  | ok u c' =>
    dsimp only
    cases readReply c' with
    | error e c'' => rfl
    | ok reply c'' =>
      cases reply with
      | prompt raw => rfl
      | paged shown =>
        simp only [capture, captured, record, EStateM.bind, Call.noted]
        cases @breakOff σ _ sentinel _ <;> rfl

/-- Turns one after another, from one call to another. -/
inductive Happens : List Turn → Call σ → Call σ → Prop where
  | nil {c : Call σ} : Happens [] c c
  | cons {line : Text} {fate : Fate} {turns : List Turn} {c c₁ c' : Call σ}
      (first : turnAt line c = (fate, c₁)) (rest : Happens turns c₁ c') :
      Happens (⟨line, fate⟩ :: turns) c c'

theorem exchangeAll_cons (sentinel line : Text) (lines : List Text) (c : Call σ) :
    exchangeAll sentinel (line :: lines) c = match exchange line sentinel c with
      | .ok none c' => exchangeAll sentinel lines c'
      | .ok (some code) c' => .ok (some code) c'
      | .error e c' => .error e c' := by
  simp only [exchangeAll, bind, EStateM.bind]
  cases exchange line sentinel c with
  | error e c' => rfl
  | ok code c' => cases code <;> rfl

/-- Lines behind lines are sent where nothing has failed. -/
theorem exchangeAll_append (sentinel : Text) (xs ys : List Text) (c : Call σ) :
    exchangeAll sentinel (xs ++ ys) c = match exchangeAll sentinel xs c with
      | .ok none c' => exchangeAll sentinel ys c'
      | .ok (some code) c' => .ok (some code) c'
      | .error e c' => .error e c' := by
  induction xs generalizing c with
  | nil => rfl
  | cons x xs ih =>
    rw [List.cons_append, exchangeAll_cons, exchangeAll_cons]
    cases exchange x sentinel c with
    | error e c' => rfl
    | ok code c' =>
      cases code with
      | some code => rfl
      | none => exact ih c'

/-- **Running is sending all lines,** the sentinel behind the statements as one of them. Only the
return code is noted afterwards. -/
theorem runLines_concat (statements : List Text) (sentinel : Text) (c : Call σ) :
    match exchangeAll sentinel (statements ++ [sentinel]) c with
      | .ok _ c' => ∃ code, runLines (statements ++ [sentinel]) c = .ok () (c'.withCode code)
      | .error e c' => runLines (statements ++ [sentinel]) c = .error e c' := by
  have last : (statements ++ [sentinel]).getLast? = some sentinel := by
    rw [List.getLast?_append]
    rfl
  have front : (statements ++ [sentinel]).dropLast = statements := List.dropLast_concat
  rw [exchangeAll_append, runLines, last, front]
  simp only [bind, EStateM.bind]
  cases exchangeAll sentinel statements c with
  | error e c' => rfl
  | ok code c' =>
    cases code with
    | some code => exact ⟨code, rfl⟩
    | none =>
      simp only [exchangeAll_cons, EStateM.bind]
      cases exchange sentinel sentinel c' with
      | error e c'' => rfl
      | ok code c'' => cases code <;> exact ⟨_, rfl⟩

end DoRunner.Console
