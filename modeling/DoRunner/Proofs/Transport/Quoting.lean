import DoRunner.Transport.AppleScript

/-!
# Quoted arguments

An argument is escaped by four replacements, one after the other, each over the whole text. Because
backslashes are doubled first, the result is what escaping each character on its own gives
(`escaped_eq_flatMap`), and what holds of one character then holds of a text.

A literal is read by a scanner that knows nothing of the replacements: it stops at the first quote
that no backslash escapes. From a script it reads the argument as it was, and what it leaves is what
stands behind the literal (`script_quotes`).
-/

namespace DoRunner.AppleScript

/-! ## Literals as they are read -/

/-- The character that an escape stands for, by what follows its backslash. -/
def unescapeChar? (c : Char) : Option Char :=
  if c = '\\' then some '\\'
  else if c = '"' then some '"'
  else if c = 'n' then some '\n'
  else if c = 'r' then some '\r'
  else none

/-- What a literal stands for, and what follows it, by what stands behind its opening quote. -/
def readInside? : Text → Option (Text × Text)
  | [] => none
  | '"' :: t => some ([], t)
  | ['\\'] => none
  | '\\' :: c :: t =>
    (unescapeChar? c).bind fun d => (readInside? t).map fun (value, rest) => (d :: value, rest)
  | c :: t => (readInside? t).map fun (value, rest) => (c :: value, rest)

/-- What the literal at the front of a text stands for, and what follows it. -/
def readLiteral? : Text → Option (Text × Text)
  | '"' :: t => readInside? t
  | _ => none

/-- The places of the quotes that no backslash escapes, counted from `place`. -/
def unescapedQuotes (place : Nat) : Text → List Nat
  | [] => []
  | '\\' :: _ :: t => unescapedQuotes (place + 2) t
  | c :: t =>
    if c = '"' then place :: unescapedQuotes (place + 1) t else unescapedQuotes (place + 1) t

/-! ## One character -/

/-- A character as it is written in a literal. -/
def escapeChar (c : Char) : Text :=
  if c = '\\' then ['\\', '\\']
  else if c = '\n' then ['\\', 'n']
  else if c = '\r' then ['\\', 'r']
  else if c = '"' then ['\\', '"']
  else [c]

/-- **The replacements are a code of single characters.** None of them touches what an earlier one
has written. -/
theorem escaped_eq_flatMap (t : Text) : escaped t = t.flatMap escapeChar := by
  unfold escaped replaceEach
  -- four passes over the text are one pass with four replacements at each character
  rw [List.flatMap_assoc, List.flatMap_assoc, List.flatMap_assoc]
  congr 1
  funext c
  by_cases backslash : c = '\\'
  · subst backslash; rfl
  by_cases lineFeed : c = '\n'
  · subst lineFeed; rfl
  by_cases carriageReturn : c = '\r'
  · subst carriageReturn; rfl
  by_cases quote : c = '"'
  · subst quote; rfl
  · simp [escapeChar, backslash, lineFeed, carriageReturn, quote]

/-- A character is escaped, or is one that needs no escape. -/
theorem escapeChar_cases (c : Char) :
    (∃ d, escapeChar c = ['\\', d] ∧ unescapeChar? d = some c ∧ d ≠ '\n' ∧ d ≠ '\r') ∨
      (escapeChar c = [c] ∧ c ≠ '\\' ∧ c ≠ '"' ∧ c ≠ '\n' ∧ c ≠ '\r') := by
  by_cases backslash : c = '\\'
  · subst backslash; exact .inl ⟨'\\', by decide⟩
  by_cases lineFeed : c = '\n'
  · subst lineFeed; exact .inl ⟨'n', by decide⟩
  by_cases carriageReturn : c = '\r'
  · subst carriageReturn; exact .inl ⟨'r', by decide⟩
  by_cases quote : c = '"'
  · subst quote; exact .inl ⟨'"', by decide⟩
  · refine .inr ⟨?_, backslash, quote, lineFeed, carriageReturn⟩
    rw [escapeChar, if_neg backslash, if_neg lineFeed, if_neg carriageReturn, if_neg quote]

theorem readInside?_cons {c : Char} (backslash : c ≠ '\\') (quote : c ≠ '"') (t : Text) :
    readInside? (c :: t) = (readInside? t).map fun (value, rest) => (c :: value, rest) := by
  rw [readInside?]
  · exact quote
  · exact fun same _ => backslash same
  · exact fun _ _ same _ => backslash same

theorem readInside?_escapeChar (c : Char) (t : Text) :
    readInside? (escapeChar c ++ t)
      = (readInside? t).map fun (value, rest) => (c :: value, rest) := by
  rcases escapeChar_cases c with ⟨d, written, stands, -, -⟩ | ⟨written, backslash, quote, -, -⟩
  · rw [written, List.cons_append, List.singleton_append, readInside?, stands]
    rfl
  · rw [written, List.singleton_append]
    exact readInside?_cons backslash quote t

theorem unescapedQuotes_escapeChar (place : Nat) (c : Char) (t : Text) :
    unescapedQuotes place (escapeChar c ++ t)
      = unescapedQuotes (place + (escapeChar c).length) t := by
  rcases escapeChar_cases c with ⟨d, written, -, -, -⟩ | ⟨written, backslash, quote, -, -⟩
  · rw [written]
    rfl
  · rw [written, List.singleton_append, unescapedQuotes, if_neg quote]
    · rfl
    · exact fun _ _ same _ => backslash same

/-! ## A whole argument -/

theorem readInside?_escaped (value rest : Text) :
    readInside? (escaped value ++ '"' :: rest) = some (value, rest) := by
  rw [escaped_eq_flatMap]
  induction value with
  | nil => rfl
  | cons c value ih => rw [List.flatMap_cons, List.append_assoc, readInside?_escapeChar, ih]; rfl

/-- Reading a literal gives back its text, whatever follows the literal. -/
theorem readLiteral?_literal (value rest : Text) :
    readLiteral? (literal value ++ rest) = some (value, rest) := by
  rw [literal, List.append_assoc]
  exact readInside?_escaped value rest

theorem unescapedQuotes_escaped (place : Nat) (value t : Text) :
    unescapedQuotes place (escaped value ++ t)
      = unescapedQuotes (place + (escaped value).length) t := by
  rw [escaped_eq_flatMap]
  induction value generalizing place with
  | nil => rfl
  | cons c value ih =>
    rw [List.flatMap_cons, List.append_assoc, unescapedQuotes_escapeChar, ih, List.length_append,
      Nat.add_assoc]

/-- The quotes of a literal are its first and its last character, and no others. -/
theorem unescapedQuotes_literal (value : Text) :
    unescapedQuotes 0 (literal value) = [0, (literal value).length - 1] := by
  have length : (literal value).length - 1 = 1 + (escaped value).length := by
    rw [literal, List.length_append, List.length_cons, List.length_singleton]
    omega
  rw [length, literal, List.cons_append, unescapedQuotes, if_pos rfl, unescapedQuotes_escaped]
  · rw [Nat.zero_add]
    rfl
  · exact fun _ _ same _ => absurd same (by decide)

/-- No line ends in a literal. -/
theorem notMem_literal (value : Text) : '\n' ∉ literal value ∧ '\r' ∉ literal value := by
  have inside : ∀ c ∈ escaped value, c ≠ '\n' ∧ c ≠ '\r' := by
    intro c m
    rw [escaped_eq_flatMap, List.mem_flatMap] at m
    obtain ⟨d, -, m⟩ := m
    rcases escapeChar_cases d with ⟨e, written, -, lineFeed, carriageReturn⟩ |
      ⟨written, -, -, lineFeed, carriageReturn⟩
    · rw [written] at m
      rcases List.mem_cons.mp m with rfl | m
      · decide
      · rw [List.mem_singleton.mp m]
        exact ⟨lineFeed, carriageReturn⟩
    · rw [written] at m
      rw [List.mem_singleton.mp m]
      exact ⟨lineFeed, carriageReturn⟩
  have outside : ∀ c ∈ literal value, c = '"' ∨ c ∈ escaped value := by
    intro c m
    simpa [literal, or_comm, or_assoc] using m
  constructor
  · intro m
    rcases outside _ m with quote | m
    · exact absurd quote (by decide)
    · exact (inside _ m).1 rfl
  · intro m
    rcases outside _ m with quote | m
    · exact absurd quote (by decide)
    · exact (inside _ m).2 rfl

theorem script_some (application name value : Text) :
    script application name (some value)
      = script application name none ++ ' ' :: literal value := by
  unfold script
  dsimp only
  rw [List.append_nil]

/-- **An argument is quoted so that it can be read back and cannot break out.** Behind the script
without an argument stand a space and a literal without a line end, whose only unescaped quotes are
its first and last characters. Whatever follows the literal, reading it gives the argument and leaves
what follows. So scripts with different arguments differ. -/
theorem script_quotes (application name value : Text) :
    script application name (some value)
      = script application name none ++ ' ' :: literal value ∧
    '\n' ∉ literal value ∧ '\r' ∉ literal value ∧
    unescapedQuotes 0 (literal value) = [0, (literal value).length - 1] ∧
    (∀ rest, readLiteral? (literal value ++ rest) = some (value, rest)) ∧
    ∀ other, script application name (some other) = script application name (some value)
      ↔ other = value := by
  refine ⟨script_some .., (notMem_literal value).1, (notMem_literal value).2,
    unescapedQuotes_literal value, readLiteral?_literal value, fun other => ⟨?_, ?_⟩⟩
  · intro same
    rw [script_some, script_some] at same
    have literals : literal other = literal value :=
      (List.cons.inj (List.append_cancel_left same)).2
    have read := readLiteral?_literal other []
    rw [literals, readLiteral?_literal] at read
    exact (Prod.mk.inj (Option.some.inj read)).1.symm
  · rintro rfl
    rfl

/-- Backslashes before a quote, before the letter of an escape and at the end of the argument. -/
example : literal "a\\\"\\n\n\\".toList = "\"a\\\\\\\"\\\\n\\n\\\\\"".toList ∧
    unescapedQuotes 0 (literal "a\\\"\\n\n\\".toList) = [0, 13] := by decide

end DoRunner.AppleScript
