import DoRunner.Proofs.Source.BehindQuote
import DoRunner.Proofs.Source.CommentPass

/-!
# The way of a pass through a text

Both passes go through a text in the same manner: step by step, each step leaving less of the text
and putting what it reads behind it. A `Pass` is what they have in common, and `Goes` is a part of
the way that a pass takes: from one state to another, with what the pass is inside of before each
step between them.

Ways can be put together (`Goes.trans`), they can be taken side by side (`Goes.alongside`), and a
way that ends before a double quote does not depend on what stands behind that quote
(`Goes.replace`).
-/

namespace DoRunner

/-- A pass over texts, with the states it has between steps. -/
structure Pass (σ : Type) where
  /-- One step at a text that is not over: the state after it and the text then left. -/
  step : σ → Char → Text → σ × Text
  /-- All steps over a text. -/
  run : σ → Text → σ
  /-- What the scanner is inside of. -/
  modes : σ → ModeStack
  /-- The marks made so far. -/
  past : σ → Past
  run_nil : ∀ s, run s [] = s
  run_cons : ∀ s c rest, run s (c :: rest) = run (step s c rest).1 (step s c rest).2
  /-- A step leaves the end of a text. -/
  suffix : ∀ s c rest, (step s c rest).2 <:+ rest
  /-- What a step reads is behind it then. -/
  text_step : ∀ s c rest,
    (past (step s c rest).1).text ++ (step s c rest).2 = (past s).text ++ c :: rest
  /-- A step that is over before a double quote does not depend on what stands behind it. -/
  step_quote : ∀ {s c front back left}, (step s c (front ++ '"' :: back)).2 = left ++ '"' :: back →
    ∀ back', step s c (front ++ '"' :: back')
      = ((step s c (front ++ '"' :: back)).1, left ++ '"' :: back')

/-- The comment pass. -/
def Comments.pass : Pass Comments.State where
  step := Comments.step
  run := Comments.run
  modes := (·.modes)
  past := (·.past)
  run_nil := fun s => by rw [Comments.run]
  run_cons := Comments.run_cons
  suffix := fun _ _ rest => List.drop_suffix _ rest
  text_step := Comments.text_step
  step_quote := Comments.step_quote

/-- The block pass. -/
def Blocks.pass : Pass Blocks.State where
  step := Blocks.step
  run := Blocks.run
  modes := (·.modes)
  past := (·.past)
  run_nil := fun s => by rw [Blocks.run]
  run_cons := Blocks.run_cons
  suffix := fun _ _ rest => List.drop_suffix _ rest
  text_step := Blocks.text_step
  step_quote := Blocks.step_quote

/-- The pass goes from `s`, with `text` ahead of it, to another state with the text that is then
left. What it is inside of before each of its steps is listed. -/
inductive Goes {σ : Type} (pass : Pass σ) (s : σ) (text : Text) :
    List ModeStack → σ → Text → Prop where
  | stay : Goes pass s text [] s text
  | step {through : List ModeStack} {t : σ} {c : Char} {rest : Text}
      (before : Goes pass s text through t (c :: rest)) :
      Goes pass s text (through ++ [pass.modes t]) (pass.step t c rest).1 (pass.step t c rest).2

namespace Goes

variable {σ : Type} {pass : Pass σ} {s t : σ} {text left : Text} {through : List ModeStack}

theorem once {c : Char} {rest : Text} (read : pass.step s c rest = (t, left)) :
    Goes pass s (c :: rest) [pass.modes s] t left := by
  have one : Goes pass s (c :: rest) [pass.modes s] _ _ := stay.step
  rw [read] at one
  exact one

theorem trans {u : σ} {text' : Text} {through' : List ModeStack}
    (first : Goes pass s text through t left) (last : Goes pass t left through' u text') :
    Goes pass s text (through ++ through') u text' := by
  induction last with
  | stay => rwa [List.append_nil]
  | step before ih =>
    rw [← List.append_assoc]
    exact ih.step

/-- **The whole way** leads to where the pass ends. -/
theorem exists_whole (s : σ) (text : Text) :
    ∃ through, Goes pass s text through (pass.run s text) [] := by
  match text with
  | [] => exact ⟨[], by rw [pass.run_nil]; exact stay⟩
  | c :: rest =>
    obtain ⟨through, goes⟩ := exists_whole (pass.step s c rest).1 (pass.step s c rest).2
    rw [pass.run_cons]
    exact ⟨_, (once rfl).trans goes⟩
termination_by text.length
decreasing_by exact Nat.lt_succ_of_le (pass.suffix s c rest).length_le

/-- From everywhere on its way the pass ends where it ends from the start. -/
theorem run_eq (h : Goes pass s text through t left) : pass.run s text = pass.run t left := by
  induction h with
  | stay => rfl
  | step before ih => rw [ih, pass.run_cons]

/-- What every step keeps holds on all of the way. -/
theorem invariant {property : σ → Prop}
    (keeps : ∀ s c rest, property s → property (pass.step s c rest).1)
    (h : Goes pass s text through t left) (holds : property s) : property t := by
  induction h with
  | stay => exact holds
  | step before ih => exact keeps _ _ _ ih

/-- What has been read is behind. -/
theorem text_eq (h : Goes pass s text through t left) :
    (pass.past t).text ++ left = (pass.past s).text ++ text := by
  induction h with
  | stay => rfl
  | step before ih => rw [pass.text_step, ih]

/-- **A way that ends before a double quote** does not depend on what stands behind that quote. -/
theorem replace {front back : Text}
    (h : Goes pass s (front ++ '"' :: back) through t (left ++ '"' :: back)) (back' : Text) :
    Goes pass s (front ++ '"' :: back') through t (left ++ '"' :: back') := by
  generalize hstart : front ++ '"' :: back = start at h
  generalize hstop : left ++ '"' :: back = stop at h
  induction h generalizing left with
  | stay =>
    rw [List.append_cancel_right (hstop.trans hstart.symm)]
    exact stay
  | @step through t c rest before ih =>
    -- what the step leaves begins before the quote, and so does what it was made at
    obtain ⟨read, hread⟩ := pass.suffix t c rest
    rw [← hstop, ← List.append_assoc] at hread
    have goes : Goes pass s (front ++ '"' :: back') through t
        (c :: (read ++ left ++ '"' :: back')) :=
      @ih (c :: (read ++ left)) (congrArg (c :: ·) hread)
    obtain rfl := hread
    have one := goes.step
    rw [pass.step_quote hstop.symm back'] at one
    exact one

/-- **Two ways side by side:** what belongs together goes through the same modes and stays together,
whatever text is ahead. -/
theorem alongside {R : σ → σ → Prop} (modes : ∀ {s s'}, R s s' → pass.modes s' = pass.modes s)
    (steps : ∀ {s s'}, R s s' → ∀ c rest, R (pass.step s c rest).1 (pass.step s' c rest).1 ∧
      (pass.step s' c rest).2 = (pass.step s c rest).2)
    {s' : σ} (together : R s s') (h : Goes pass s text through t left) :
    ∃ t', Goes pass s' text through t' left ∧ R t t' := by
  induction h with
  | stay => exact ⟨s', stay, together⟩
  | @step through t c rest before ih =>
    obtain ⟨t', goes, both⟩ := ih
    obtain ⟨after, same⟩ := steps both c rest
    rw [← modes both, ← same]
    exact ⟨_, goes.step, after⟩

end Goes

end DoRunner
