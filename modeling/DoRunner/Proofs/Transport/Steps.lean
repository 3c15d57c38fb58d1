import DoRunner.Transport.Basic

/-!
# Steps that may fail

A step of a call leaves a call behind whether it fails or not. What is said of a row of steps is
said of what each of them leaves (`bind_cases`).
-/

namespace DoRunner

variable {ε s α β : Type}

/-- What a step leaves. -/
def stateOf : EStateM.Result ε s α → s
  | .ok _ x => x
  | .error _ x => x

/-- What holds of a step and of what follows it, wherever it fails, holds of both together. -/
theorem bind_cases {Q : EStateM.Result ε s β → Prop} {x : EStateM ε s α} {f : α → EStateM ε s β}
    {c : s} (ok : ∀ a c', x c = .ok a c' → Q (f a c'))
    (error : ∀ e c', x c = .error e c' → Q (.error e c')) : Q ((x >>= f) c) := by
  show Q (EStateM.bind x f c)
  rw [EStateM.bind]
  cases h : x c with
  | ok a c' => exact ok a c' h
  | error e c' => exact error e c' h

end DoRunner
