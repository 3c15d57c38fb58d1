import Mathlib.Algebra.Group.Int.Defs
import Mathlib.Algebra.Group.Nat.Defs
import DoRunner.Transport.AppleScript

/-!
# Return codes of scripted commands

What a script prints is a text. It is read as an integer if digits are all that stands in it, perhaps
after a sign and between blanks, and if the number has 64 bits. As a return code it is taken if it has
32 bits and nothing was printed about errors. So that no failure is taken for a success, it matters
that these are the only texts that are read so, and that the number is the one that they write.

What a text writes is said by the places of its digits (`placeValue`), while the digits are read one
by one (`digitsValue_eq_placeValue`). What commands give back is `returnCode_exact`.
-/

namespace DoRunner

/-! ## Integers as they are written -/

namespace Text

/-- The number that digits write: each counts for as many tens, multiplied, as digits are behind it. -/
def placeValue : Text → Nat
  | [] => 0
  | c :: digits => (c.toNat - 0x30) * 10 ^ digits.length + placeValue digits

theorem digitsValue_eq_placeValue (acc : Nat) (digits : Text) :
    digitsValue acc digits = acc * 10 ^ digits.length + placeValue digits := by
  induction digits generalizing acc with
  | nil => simp [digitsValue, placeValue]
  | cons c digits ih =>
    calc digitsValue acc (c :: digits)
        = (10 * acc + (c.toNat - 0x30)) * 10 ^ digits.length + placeValue digits := ih _
      _ = acc * 10 ^ (c :: digits).length + placeValue (c :: digits) := by
          rw [Nat.add_mul, placeValue, List.length_cons, Nat.pow_succ', Nat.add_assoc,
            Nat.mul_comm 10 acc, Nat.mul_assoc]

example : digitsValue 3 "071".toList = 3 * 10 ^ 3 + 71 := by decide

/-- Whether the text is one or more digits. -/
def IsNumeral (t : Text) : Prop := t ≠ [] ∧ ∀ c ∈ t, isAsciiDigit c = true

theorem toNat?_eq_some_iff {t : Text} {n : Nat} :
    toNat? t = some n ↔ IsNumeral t ∧ placeValue t = n := by
  have value : digitsValue 0 t = placeValue t := by
    rw [digitsValue_eq_placeValue, Nat.zero_mul, Nat.zero_add]
  simp only [toNat?, value, List.all_eq_true, IsNumeral, Option.ite_none_right_eq_some,
    Option.some.injEq]

/-- Whether the text writes the integer: with digits, and a sign before them or none. -/
inductive WritesInteger : Text → Int → Prop
  | unsigned {digits : Text} : IsNumeral digits → WritesInteger digits (placeValue digits)
  | positive {digits : Text} : IsNumeral digits → WritesInteger ('+' :: digits) (placeValue digits)
  | negative {digits : Text} :
      IsNumeral digits → WritesInteger ('-' :: digits) (-(placeValue digits : Int))

/-- No sign is the first digit of a numeral. -/
theorem not_isNumeral_cons {c : Char} (h : isAsciiDigit c = false) (t : Text) :
    ¬ IsNumeral (c :: t) := by
  intro numeral
  rw [numeral.2 c List.mem_cons_self] at h
  exact Bool.noConfusion h

theorem writesInteger_negative_iff {t : Text} {n : Int} :
    WritesInteger ('-' :: t) n ↔ IsNumeral t ∧ -(placeValue t : Int) = n := by
  constructor
  · intro h
    cases h with
    | unsigned numeral => exact absurd numeral (not_isNumeral_cons (by decide) t)
    | negative numeral => exact ⟨numeral, rfl⟩
  · rintro ⟨numeral, rfl⟩
    exact .negative numeral

theorem writesInteger_positive_iff {t : Text} {n : Int} :
    WritesInteger ('+' :: t) n ↔ IsNumeral t ∧ (placeValue t : Int) = n := by
  constructor
  · intro h
    cases h with
    | unsigned numeral => exact absurd numeral (not_isNumeral_cons (by decide) t)
    | positive numeral => exact ⟨numeral, rfl⟩
  · rintro ⟨numeral, rfl⟩
    exact .positive numeral

theorem writesInteger_unsigned_iff {t : Text} {n : Int} (negative : t.head? ≠ some '-')
    (positive : t.head? ≠ some '+') :
    WritesInteger t n ↔ IsNumeral t ∧ (placeValue t : Int) = n := by
  constructor
  · intro h
    cases h with
    | unsigned numeral => exact ⟨numeral, rfl⟩
    | positive => exact absurd rfl positive
    | negative => exact absurd rfl negative
  · rintro ⟨numeral, rfl⟩
    exact .unsigned numeral

end Text

/-! ## Values -/

namespace AutomationValue

open Text

/-- Whether the integer has 64 bits. -/
def HasBits64 (n : Int) : Prop := -2 ^ 63 ≤ n ∧ n < 2 ^ 63

theorem int64?_eq_some_iff {t : Text} {n : Int} :
    int64? t = some n ↔ WritesInteger t n ∧ HasBits64 n := by
  have read {t : Text} {f : Nat → Int} :
      (toNat? t).map f = some n ↔ IsNumeral t ∧ f (placeValue t) = n := by
    simp only [Option.map_eq_some_iff, toNat?_eq_some_iff, and_assoc, exists_and_left, exists_eq_left']
  have negated {t : Text} : ((toNat? t).bind fun m => some (m : Int)).map (fun m => -m)
      = (toNat? t).map fun m : Nat => -(m : Int) := by
    cases toNat? t <;> rfl
  have range : -9223372036854775808 ≤ n ∧ n ≤ 9223372036854775807 ↔ HasBits64 n := by
    unfold HasBits64
    omega
  unfold int64?
  dsimp only
  rw [Option.filter_eq_some_iff, decide_eq_true_eq, range]
  refine and_congr_left fun _ => ?_
  split
  · simp only [Option.bind_eq_bind, Option.pure_def]
    rw [negated, read, writesInteger_negative_iff]
  · rw [read, writesInteger_positive_iff]
    rfl
  · rename_i negative positive
    rw [read, writesInteger_unsigned_iff]
    · rfl
    · intro first
      obtain ⟨rest, rfl⟩ := List.head?_eq_some_iff.mp first
      exact negative rest rfl
    · intro first
      obtain ⟨rest, rfl⟩ := List.head?_eq_some_iff.mp first
      exact positive rest rfl

/-- The word for a truth value. -/
def word (b : Bool) : Text := (if b then "true" else "false").toList

/-- No word is an integer. -/
theorem int64?_trim_word (b : Bool) : int64? (trim (word b)) = none := by
  cases b <;> decide

section Resolve

variable {raw : Text}

theorem resolve_of_word {b : Bool} (h : withoutLineEnds raw = word b) : resolve raw = .bool b := by
  unfold resolve
  rw [h]
  cases b <;> rfl

theorem resolve_of_ne_word (h : ∀ b, withoutLineEnds raw ≠ word b) :
    resolve raw = match int64? (trim (withoutLineEnds raw)) with
      | some n => .int n
      | none => .text (withoutLineEnds raw) := by
  have yes : withoutLineEnds raw ≠ "true".toList := h true
  have no : withoutLineEnds raw ≠ "false".toList := h false
  exact (if_neg yes).trans (if_neg no)

theorem resolve_eq_bool_iff {b : Bool} :
    resolve raw = .bool b ↔ withoutLineEnds raw = word b := by
  refine ⟨fun h => ?_, resolve_of_word⟩
  by_cases isWord : ∃ b', withoutLineEnds raw = word b'
  · obtain ⟨b', isWord⟩ := isWord
    rw [resolve_of_word isWord, AutomationValue.bool.injEq] at h
    rw [isWord, h]
  · rw [resolve_of_ne_word (not_exists.mp isWord)] at h
    split at h <;> exact AutomationValue.noConfusion h

theorem resolve_eq_int_iff {n : Int} :
    resolve raw = .int n ↔ WritesInteger (trim (withoutLineEnds raw)) n ∧ HasBits64 n := by
  rw [← int64?_eq_some_iff]
  by_cases isWord : ∃ b, withoutLineEnds raw = word b
  · obtain ⟨b, isWord⟩ := isWord
    rw [resolve_of_word isWord, isWord, int64?_trim_word]
    simp
  · rw [resolve_of_ne_word (not_exists.mp isWord)]
    cases int64? (trim (withoutLineEnds raw)) <;> simp

/-- The least integer is read, and the one above the greatest is a text. -/
example : resolve " -9223372036854775808\r\n".toList = .int (-9223372036854775808) ∧
    resolve "9223372036854775808\n".toList = .text "9223372036854775808".toList := by decide

theorem resolve_eq_text_iff {t : Text} :
    resolve raw = .text t ↔ withoutLineEnds raw = t ∧ (∀ b, t ≠ word b) ∧
      ¬ ∃ n, WritesInteger (trim t) n ∧ HasBits64 n := by
  simp only [← int64?_eq_some_iff]
  by_cases isWord : ∃ b, withoutLineEnds raw = word b
  · obtain ⟨b, isWord⟩ := isWord
    rw [resolve_of_word isWord]
    refine iff_of_false AutomationValue.noConfusion ?_
    rintro ⟨rfl, noWord, -⟩
    exact noWord b isWord
  · have noWord := not_exists.mp isWord
    rw [resolve_of_ne_word noWord]
    constructor
    · intro h
      split at h
      · exact AutomationValue.noConfusion h
      · rename_i noInteger
        obtain rfl := AutomationValue.text.inj h
        refine ⟨rfl, noWord, ?_⟩
        rw [noInteger]
        rintro ⟨n, ⟨⟩⟩
    · rintro ⟨rfl, -, noInteger⟩
      rw [Option.eq_none_iff_forall_ne_some.mpr (not_exists.mp noInteger)]

end Resolve

end AutomationValue

/-! ## Commands -/

/-- A step is done and another after it exactly when the first is done and the other does the rest. -/
theorem bind_eq_ok_iff {ε s α β : Type} {x : EStateM ε s α} {f : α → EStateM ε s β} {c c' : s}
    {b : β} : (x >>= f) c = .ok b c' ↔ ∃ a between, x c = .ok a between ∧ f a between = .ok b c' := by
  show EStateM.bind x f c = _ ↔ _
  rw [EStateM.bind]
  cases x c with
  | ok a between =>
    simp only [EStateM.Result.ok.injEq]
    exact ⟨fun h => ⟨a, between, ⟨rfl, rfl⟩, h⟩, by rintro ⟨_, _, ⟨rfl, rfl⟩, h⟩; exact h⟩
  | error e between => simp

namespace ScriptedApplication

open AutomationValue AppleScript

theorem valueOf_eq_ok_iff {script : Text} {output : ScriptOutput} {v : AutomationValue} :
    valueOf script output = .ok v ↔
      output.stderr = [] ∧ resolve (Utf8.decodeLossy output.stdout) = v := by
  unfold valueOf
  by_cases silent : output.stderr = []
  · rw [if_pos silent, Except.ok.injEq, and_iff_right silent]
  · simp [silent]

/-- Whether the integer has 32 bits. -/
def HasBits32 (n : Int) : Prop := -2 ^ 31 ≤ n ∧ n < 2 ^ 31

theorem returnCode_eq_ok_iff {command : Text} {v : AutomationValue} {c : Int} :
    returnCode command v = .ok c ↔ v = .int c ∧ HasBits32 c := by
  cases v with
  | bool b => simp [returnCode]
  | text t => simp [returnCode]
  | int n =>
    rw [returnCode, AutomationValue.int.injEq]
    have range : -2147483648 ≤ n ∧ n ≤ 2147483647 ↔ HasBits32 n := by
      unfold HasBits32
      omega
    by_cases inRange : HasBits32 n
    · rw [if_pos (range.mpr inRange), Except.ok.injEq]
      exact ⟨by rintro rfl; exact ⟨rfl, inRange⟩, And.left⟩
    · rw [if_neg (mt range.mp inRange)]
      refine iff_of_false (by simp) ?_
      rintro ⟨rfl, has⟩
      exact inRange has

variable {ρ : Type} [ScriptRunner ρ]

omit [ScriptRunner ρ] in
theorem orFail_eq_ok_iff {β : Type} {result : Except TransportError β} {b : β}
    {h h' : Host (ScriptedApplication ρ)} :
    orFail result h = .ok b h' ↔ result = .ok b ∧ h' = h := by
  cases result with
  | error e =>
    show EStateM.Result.error e h = _ ↔ _
    simp
  | ok a =>
    show EStateM.Result.ok a h = _ ↔ _
    rw [EStateM.Result.ok.injEq, Except.ok.injEq, @eq_comm _ h]

/-- Whether the script that runs a named command comes to its end and prints something, with what is
left of the host. -/
def Prints (name : Text) (argument : Option Text) (h : Host (ScriptedApplication ρ))
    (output : Timed ScriptOutput) (h' : Host (ScriptedApplication ρ)) : Prop :=
  ∃ after, ScriptRunner.runScript (script h.guest.name name argument) ⟨h.guest.runner, h.disk⟩
      = .ok output after ∧
    h' = ⟨{ h.guest with runner := after.guest }, after.disk⟩

theorem within_runScript_eq_ok_iff {name : Text} {argument : Option Text}
    {h h' : Host (ScriptedApplication ρ)} {output : Timed ScriptOutput} :
    Action.within (·.runner) (fun (a : ScriptedApplication ρ) runner => { a with runner })
        (ScriptRunner.runScript (script h.guest.name name argument)) h = .ok output h' ↔
      Prints name argument h output h' := by
  unfold Action.within Prints
  cases ScriptRunner.runScript (script h.guest.name name argument) ⟨h.guest.runner, h.disk⟩ with
  | error e after => simp
  | ok output' after =>
    simp only [EStateM.Result.ok.injEq]
    exact ⟨by rintro ⟨rfl, rfl⟩; exact ⟨after, ⟨rfl, rfl⟩, rfl⟩,
      by rintro ⟨_, ⟨rfl, rfl⟩, rfl⟩; exact ⟨rfl, rfl⟩⟩

/-- **A command has a value exactly when its script prints one and nothing about errors.** -/
theorem command_eq_ok_iff {name : Text} {argument : Option Text}
    {h h' : Host (ScriptedApplication ρ)} {v : AutomationValue} {took : Nat} :
    command name argument h = .ok ⟨v, took⟩ h' ↔
      ∃ output, Prints name argument h ⟨output, took⟩ h' ∧ output.stderr = [] ∧
        resolve (Utf8.decodeLossy output.stdout) = v := by
  constructor
  · intro ran
    obtain ⟨output, between, printed, rest⟩ := bind_eq_ok_iff.mp ran
    obtain ⟨value, after, valued, done⟩ := bind_eq_ok_iff.mp rest
    obtain ⟨read, rfl⟩ := orFail_eq_ok_iff.mp valued
    cases done
    exact ⟨output.value, within_runScript_eq_ok_iff.mp printed, valueOf_eq_ok_iff.mp read⟩
  · rintro ⟨output, printed, read⟩
    exact bind_eq_ok_iff.mpr ⟨⟨output, took⟩, h', within_runScript_eq_ok_iff.mpr printed,
      bind_eq_ok_iff.mpr ⟨v, h', orFail_eq_ok_iff.mpr ⟨valueOf_eq_ok_iff.mpr read, rfl⟩, rfl⟩⟩

/-- **A command has a return code exactly when its script prints one and nothing about errors.** -/
theorem exists_returnCode_iff {name : Text} {argument : Option Text}
    {h h' : Host (ScriptedApplication ρ)} {c : Int} {took : Nat} :
    (∃ v, command name argument h = .ok ⟨v, took⟩ h' ∧ returnCode name v = .ok c) ↔
      ∃ output, Prints name argument h ⟨output, took⟩ h' ∧ output.stderr = [] ∧
        resolve (Utf8.decodeLossy output.stdout) = .int c ∧ HasBits32 c := by
  constructor
  · rintro ⟨v, ran, code⟩
    obtain ⟨rfl, inRange⟩ := returnCode_eq_ok_iff.mp code
    obtain ⟨output, printed, silent, read⟩ := command_eq_ok_iff.mp ran
    exact ⟨output, printed, silent, read, inRange⟩
  · rintro ⟨output, printed, silent, read, inRange⟩
    exact ⟨.int c, command_eq_ok_iff.mpr ⟨output, printed, silent, read⟩,
      returnCode_eq_ok_iff.mpr ⟨rfl, inRange⟩⟩

theorem submitAndWait_eq_ok_iff {code : Text} {h h' : Host (ScriptedApplication ρ)} {c : Int}
    {took : Nat} :
    submitAndWait code h = .ok ⟨c, took⟩ h' ↔
      ∃ v, command runCommand (some code) h = .ok ⟨v, took⟩ h' ∧ returnCode runCommand v = .ok c := by
  constructor
  · intro ran
    obtain ⟨v, between, valued, rest⟩ := bind_eq_ok_iff.mp ran
    obtain ⟨n, after, coded, done⟩ := bind_eq_ok_iff.mp rest
    obtain ⟨code, rfl⟩ := orFail_eq_ok_iff.mp coded
    cases done
    exact ⟨v.value, valued, code⟩
  · rintro ⟨v, valued, code⟩
    exact bind_eq_ok_iff.mpr ⟨⟨v, took⟩, h', valued,
      bind_eq_ok_iff.mpr ⟨c, h', orFail_eq_ok_iff.mpr ⟨code, rfl⟩, rfl⟩⟩

theorem lastErrorCode_eq_ok_iff {h h' : Host (ScriptedApplication ρ)} {c : Int} :
    lastErrorCode h = .ok c h' ↔
      ∃ took v, command codeCommand none h = .ok ⟨v, took⟩ h' ∧ returnCode codeCommand v = .ok c := by
  constructor
  · intro ran
    obtain ⟨v, between, valued, coded⟩ := bind_eq_ok_iff.mp ran
    obtain ⟨code, rfl⟩ := orFail_eq_ok_iff.mp coded
    exact ⟨v.took, v.value, valued, code⟩
  · rintro ⟨took, v, valued, code⟩
    exact bind_eq_ok_iff.mpr ⟨⟨v, took⟩, h', valued, orFail_eq_ok_iff.mpr ⟨code, rfl⟩⟩

/-- **Return codes are read exactly.** A reply is an integer when it is written as one, blanks at its
ends apart, and has 64 bits; a truth value when it is one of the two words and nothing but line ends
is behind it; and else it is a text, without the line ends. So a command that gives a return code has
one exactly when its script has printed nothing about errors and, as its output, an integer of 32
bits. -/
theorem returnCode_exact :
    (∀ raw n, resolve raw = .int n ↔
      Text.WritesInteger (Text.trim (withoutLineEnds raw)) n ∧ HasBits64 n) ∧
    (∀ raw b, resolve raw = .bool b ↔ withoutLineEnds raw = word b) ∧
    (∀ raw t, resolve raw = .text t ↔ withoutLineEnds raw = t ∧ (∀ b, t ≠ word b) ∧
      ¬ ∃ n, Text.WritesInteger (Text.trim t) n ∧ HasBits64 n) ∧
    (∀ (code : Text) (h h' : Host (ScriptedApplication ρ)) (c : Int) (took : Nat),
      submitAndWait code h = .ok ⟨c, took⟩ h' ↔
        ∃ output, Prints runCommand (some code) h ⟨output, took⟩ h' ∧ output.stderr = [] ∧
          resolve (Utf8.decodeLossy output.stdout) = .int c ∧ HasBits32 c) ∧
    ∀ (h h' : Host (ScriptedApplication ρ)) (c : Int),
      lastErrorCode h = .ok c h' ↔
        ∃ took output, Prints codeCommand none h ⟨output, took⟩ h' ∧ output.stderr = [] ∧
          resolve (Utf8.decodeLossy output.stdout) = .int c ∧ HasBits32 c := by
  refine ⟨fun _ _ => resolve_eq_int_iff, fun _ _ => resolve_eq_bool_iff,
    fun _ _ => resolve_eq_text_iff, fun _ _ _ _ _ => ?_, fun _ _ _ => ?_⟩
  · exact submitAndWait_eq_ok_iff.trans exists_returnCode_iff
  · exact lastErrorCode_eq_ok_iff.trans (exists_congr fun _ => exists_returnCode_iff)

end ScriptedApplication

end DoRunner
