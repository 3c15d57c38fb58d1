import DoRunner.Proofs.Echo.PlainOutput
import DoRunner.Transport.Basic
import DoRunner.Echo.ReturnCode

/-!
# What a program prints for a line

However the program is reached, it answers a line in the same way: it echoes the line and prints
some lines after it. An **exchange** is a line with these lines. The first of them that carries a
return code says that the line has failed, and nothing that would come after such a line is sent.

How much of an exchange arrives depends on the way. A carriage return at the end of the echo is
lost to a console, which reads lines with them; it never carries a return code, so the lines that
fail are the same.
-/

namespace DoRunner

/-- A line with the lines that the program prints for it. -/
structure Exchange where
  /-- The line. -/
  line : Text
  /-- The lines printed. -/
  printed : List Text
  /-- The line is a single one. -/
  oneLine : '\n' ∉ line
  /-- So are the lines printed. -/
  oneLineEach : ∀ l ∈ printed, '\n' ∉ l

namespace Exchange

/-- The exchange of a line for which nothing is printed. -/
def silent (line : Text) (oneLine : '\n' ∉ line) : Exchange :=
  ⟨line, [], oneLine, fun _ m => absurd m List.not_mem_nil⟩

/-- What the program prints: its echo of the line, and the lines. -/
def answer (x : Exchange) : Text := x.line ++ '\n' :: Text.ended x.printed

/-- What a console makes of it. -/
def received (x : Exchange) : Text := Terminal.chomp x.line ++ '\n' :: Text.ended x.printed

/-- The return code that the answer carries, if it carries one. -/
def code? (x : Exchange) : Option Int := ReturnCode.first? x.answer

/-- The exchanges up to the first whose answer carries a return code. -/
def upToFailure : List Exchange → List Exchange
  | [] => []
  | x :: more => x :: if x.code?.isSome then [] else upToFailure more

/-- The first return code that an answer carries. -/
def failure? (xs : List Exchange) : Option Int := xs.findSome? code?

/-- The lines printed hold nothing that is taken out of raw output. -/
def IsPlain (x : Exchange) : Prop := ∀ l ∈ x.printed, '\r' ∉ l ∧ '\x1b' ∉ l

theorem isPlain_of_quiet {x : Exchange} (quiet : x.printed = []) : x.IsPlain := by
  intro l m
  rw [quiet] at m
  exact absurd m List.not_mem_nil

theorem lines_answer (x : Exchange) : Text.lines x.answer = x.line :: (x.printed ++ [[]]) := by
  have tail := Text.lines_ended_append x.oneLineEach []
  rw [List.append_nil] at tail
  rw [answer, Text.lines_line_append x.oneLine, tail]
  rfl

/-! ## Return codes -/

/-- A carriage return at the end of a line has no part in a return code. -/
theorem digits?_append_return (line : Text) :
    ReturnCode.digits? (line ++ ['\r']) = ReturnCode.digits? line := by
  have absent : ∀ beginning ∈ ["r(".toList, ");".toList], '\r' ∉ beginning := by decide
  have apart : ∀ beginning ∈ ["r(".toList, ");".toList], ∀ c ∈ ['\r'], c ∉ beginning :=
    fun beginning m => List.forall_mem_singleton.mpr (absent beginning m)
  unfold ReturnCode.digits?
  rw [Text.after?_append (apart _ (by decide))]
  cases Text.after? "r(".toList line with
  | none => rfl
  | some rest =>
    have hd : ∀ c ∈ ['\r'], isDigit c = false := List.forall_mem_singleton.mpr (by decide)
    dsimp only [Option.map_some]
    rw [Text.takeWhile_append_of_neg hd, Text.dropWhile_append_of_neg hd, Text.startsWith,
      Text.after?_append (apart _ (by decide)), Option.isSome_map, ← Text.startsWith]

theorem digits?_chomp (line : Text) :
    ReturnCode.digits? (Terminal.chomp line) = ReturnCode.digits? line := by
  by_cases hcr : line.getLast? = some '\r'
  · obtain ⟨front, rfl⟩ := List.getLast?_eq_some_iff.mp hcr
    rw [Terminal.chomp_append_return, digits?_append_return]
  · rw [Terminal.chomp_of_getLast hcr]

/-- **The console reads the return code of the answer.** -/
theorem first?_received (x : Exchange) : ReturnCode.first? x.received = x.code? := by
  have hlf : '\n' ∉ Terminal.chomp x.line :=
    fun m => x.oneLine ((Terminal.chomp_isPrefix x.line).subset m)
  have tail := Text.lines_ended_append x.oneLineEach []
  rw [List.append_nil] at tail
  unfold code? ReturnCode.first?
  rw [lines_answer, received, Text.lines_line_append hlf, tail, List.findSome?_cons,
    List.findSome?_cons, digits?_chomp]
  rfl

/-- The sentinel carries no return code. -/
theorem code?_of_sentinel (x : Exchange) {fingerprint : Text} (h : x.line = sentinelOf fingerprint)
    (quiet : x.printed = []) : x.code? = none := by
  unfold code? ReturnCode.first?
  rw [x.lines_answer, h, quiet]
  rfl

/-! ## Up to the first failure -/

theorem upToFailure_of_none {xs : List Exchange} (h : failure? xs = none) (ys : List Exchange) :
    upToFailure (xs ++ ys) = xs ++ upToFailure ys := by
  induction xs with
  | nil => rfl
  | cons x xs ih =>
    rw [failure?, List.findSome?_cons] at h
    cases hx : x.code? with
    | none =>
      rw [hx] at h
      rw [List.cons_append, upToFailure, hx, if_neg (by simp), ih h, List.cons_append]
    | some code =>
      rw [hx] at h
      exact absurd h (by simp)

/-- Where nothing fails, and neither does the last line, that is all of them. -/
theorem upToFailure_concat {xs : List Exchange} {z : Exchange} (h : failure? xs = none)
    (succeeds : z.code? = none) : upToFailure (xs ++ [z]) = xs ++ [z] := by
  rw [upToFailure_of_none h, upToFailure, succeeds]
  rfl

theorem upToFailure_eq_self {xs : List Exchange} (h : failure? xs = none) :
    upToFailure xs = xs := by
  have statements := upToFailure_of_none h []
  rwa [List.append_nil, upToFailure, List.append_nil] at statements

/-- What would come after a failure does not count. -/
theorem upToFailure_of_some {xs : List Exchange} {code : Int} (h : failure? xs = some code)
    (ys : List Exchange) : upToFailure (xs ++ ys) = upToFailure xs := by
  induction xs with
  | nil => exact absurd h (by simp [failure?])
  | cons x xs ih =>
    rw [failure?, List.findSome?_cons] at h
    rw [List.cons_append, upToFailure, upToFailure]
    cases hx : x.code? with
    | none =>
      rw [hx] at h
      rw [ih h]
    | some code => rfl

theorem upToFailure_isPrefix (xs : List Exchange) : upToFailure xs <+: xs := by
  induction xs with
  | nil => exact List.prefix_rfl
  | cons x xs ih =>
    rw [upToFailure]
    split
    · exact (List.prefix_cons_inj x).mpr (List.nil_prefix)
    · exact (List.prefix_cons_inj x).mpr ih

end Exchange

end DoRunner
