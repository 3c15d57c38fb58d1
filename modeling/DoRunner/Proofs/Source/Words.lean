import DoRunner.Proofs.Source.BareLine

/-!
# What a line is spelt with

A delimiter directive is a whole line, and so is a bare `mata`: besides blanks such a line holds
nothing but the characters of those words. One other character in it, wherever it stands, and it
says neither (`Line.directive?_of_mem`, `Line.opensMata_of_mem`).

The words that open and close blocks stand at the start of their line, and anything may follow
them. What follows a double quote is never asked for: it may be anything at all
(`Line.stopsAtQuote_opensEndBlock`, `Line.stopsAtQuote_closesBlock`).
-/

namespace DoRunner

namespace Line

/-! ## Spelling -/

/-- The text holds nothing but blanks and characters of `letters`. -/
def SpeltWith (letters t : Text) : Prop := ∀ c ∈ t, isBlank c = true ∨ c ∈ letters

namespace SpeltWith

variable {letters t : Text}

theorem of_blank (h : Text.blank t = true) : SpeltWith letters t :=
  fun c m => .inl (Text.isBlank_of_blank h c m)

theorem append {front : Text} (hf : front ⊆ letters) (h : SpeltWith letters t) :
    SpeltWith letters (front ++ t) := by
  intro c m
  rcases List.mem_append.mp m with m | m
  · exact .inr (hf m)
  · exact h c m

theorem of_trimStart (h : SpeltWith letters (Text.trimStart t)) : SpeltWith letters t := by
  intro c m
  rw [← List.takeWhile_append_dropWhile (p := isBlank) (l := t)] at m
  rcases List.mem_append.mp m with m | m
  · exact .inl (List.mem_takeWhile_imp m)
  · exact h c m

theorem of_after? {word rest : Text} (found : Text.after? word t = some rest)
    (hw : word ⊆ letters) (h : SpeltWith letters rest) : SpeltWith letters t := by
  rw [Text.after?_eq_some_iff.mp found]
  exact h.append hw

end SpeltWith

theorem skipLetters_split (word t : Text) :
    ∃ front, t = front ++ skipLetters word t ∧ front ⊆ word := by
  fun_induction skipLetters word t with
  | case1 word letter t ih =>
    obtain ⟨front, split, within⟩ := ih
    exact ⟨letter :: front, congrArg (letter :: ·) split, List.cons_subset_cons letter within⟩
  | case2 w word c t h => exact ⟨[], rfl, List.nil_subset _⟩
  | case3 word t h => exact ⟨[], rfl, List.nil_subset _⟩

/-- The characters of delimiter directives. -/
def directiveLetters : Text := "#delimt;cr".toList

/-- The characters of a bare `mata`. -/
def mataLetters : Text := "mat:".toList

/-- How a directive says what it asks for. -/
def Directive.request : Directive → Text
  | .explicit => [';']
  | .newline => "cr".toList

/-- **How a directive is written:** behind its word and blanks stands what it asks for, and nothing
but blanks follows. -/
theorem request_of_directive? {line : Text} {directive : Directive}
    (h : directive? line = some directive) :
    ∃ word more, Text.trimStart line = "#d".toList ++ word ∧
      Text.trimStart (skipLetters "elimit".toList word) = directive.request ++ more ∧
      Text.blank more = true := by
  unfold directive? afterDelimit? at h
  cases found : Text.after? "#d".toList (Text.trimStart line) with
  | none => rw [found] at h; exact absurd h (by simp)
  | some word =>
    rw [found] at h
    dsimp only [Option.map_some] at h
    refine ⟨word, ?_⟩
    split at h
    · rename_i more asked
      split at h
      · rename_i blank
        obtain rfl := Option.some.inj h
        exact ⟨more, Text.after?_eq_some_iff.mp found, Text.after?_eq_some_iff.mp asked, blank⟩
      · exact absurd h (by simp)
    · split at h
      · rename_i more asked
        split at h
        · rename_i blank
          obtain rfl := Option.some.inj h
          exact ⟨more, Text.after?_eq_some_iff.mp found, Text.after?_eq_some_iff.mp asked, blank.1⟩
        · exact absurd h (by simp)
      · exact absurd h (by simp)

theorem speltWith_of_directive? {line : Text} {directive : Directive}
    (h : directive? line = some directive) : SpeltWith directiveLetters line := by
  obtain ⟨word, more, begins, asks, blank⟩ := request_of_directive? h
  obtain ⟨front, split, within⟩ := skipLetters_split "elimit".toList word
  have start : "#d".toList ⊆ directiveLetters := by decide
  have letters : "elimit".toList ⊆ directiveLetters := by decide
  have request : directive.request ⊆ directiveLetters := by cases directive <;> decide
  refine .of_trimStart ?_
  rw [begins, split]
  refine SpeltWith.append start (SpeltWith.append (List.Subset.trans within letters) ?_)
  refine .of_trimStart ?_
  rw [asks]
  exact SpeltWith.append request (.of_blank blank)

theorem speltWith_of_opensMata {line : Text} (h : opensMata line = true) :
    SpeltWith mataLetters line := by
  unfold opensMata at h
  split at h
  · exact absurd h (by simp)
  · rename_i rest found
    refine .of_trimStart (.of_after? found (by decide) (.of_trimStart ?_))
    split at h
    · rename_i more colon
      rw [colon]
      have point : [':'] ⊆ mataLetters := by decide
      exact SpeltWith.append point (.of_blank h)
    · exact .of_blank h

section Strange

variable {line : Text} {c : Char} (m : c ∈ line) (ink : isBlank c = false)

include m ink

/-- **A directive holds nothing but its words.** -/
theorem directive?_of_mem (strange : c ∉ directiveLetters) : directive? line = none := by
  cases h : directive? line with
  | none => rfl
  | some directive =>
    rcases speltWith_of_directive? h c m with blank | letter
    · exact absurd (blank.symm.trans ink) (by decide)
    · exact absurd letter strange

/-- **A bare `mata` holds nothing else.** -/
theorem opensMata_of_mem (strange : c ∉ mataLetters) : opensMata line = false := by
  refine Bool.eq_false_iff.mpr fun h => ?_
  rcases speltWith_of_opensMata h c m with blank | letter
  · exact absurd (blank.symm.trans ink) (by decide)
  · exact absurd letter strange

end Strange

end Line

/-! ## Up to a double quote -/

namespace Text

/-- What is asked of a text is never asked of what stands behind a double quote in it. -/
def StopsAtQuote {α : Type} (question : Text → α) : Prop :=
  ∀ front back back', question (front ++ '"' :: back') = question (front ++ '"' :: back)

variable {α : Type} {question : Text → α}

/-- A question to the first line does not reach further than the same question to the whole text. -/
theorem StopsAtQuote.firstLine (h : StopsAtQuote question) (front back back' : Text) :
    question (Text.firstLine (front ++ '"' :: back'))
      = question (Text.firstLine (front ++ '"' :: back)) := by
  by_cases lf : '\n' ∈ front
  · rw [Text.firstLine_append lf, Text.firstLine_append lf]
  · rw [firstLine_append_of_notMem lf, firstLine_append_of_notMem lf,
      firstLine_cons_of_ne (by decide), firstLine_cons_of_ne (by decide)]
    exact h front _ _

theorem stopsAtQuote_startsWith {beginning : Text} (h : '"' ∉ beginning) :
    StopsAtQuote (startsWith beginning) := by
  intro front back back'
  rw [startsWith_append_cons h, startsWith_append_cons h]

theorem trimStart_append_quote (front back : Text) :
    trimStart (front ++ '"' :: back) = trimStart front ++ '"' :: back :=
  Comments.dropWhile_append_cons (by decide) front back

/-- A word before the quote is looked for as if the text ended there. -/
theorem after?_trimStart_quote {word : Text} (h : '"' ∉ word) (front back : Text) :
    after? word (trimStart (front ++ '"' :: back))
      = (after? word (trimStart front)).map (· ++ '"' :: back) := by
  rw [trimStart_append_quote, after?_append_cons h]

end Text

namespace Line

open Text (StopsAtQuote after?_trimStart_quote)

theorem stopsAtQuote_directive? : StopsAtQuote directive? := by
  have none : ∀ front back, directive? (front ++ '"' :: back) = none := fun front back =>
    directive?_of_mem (List.mem_append_right front List.mem_cons_self) (by decide) (by decide)
  intro front back back'
  rw [none, none]

theorem opensMata_quote (front back : Text) : opensMata (front ++ '"' :: back) = false :=
  opensMata_of_mem (List.mem_append_right front List.mem_cons_self) (by decide) (by decide)

theorem wordEnds_quote (front back back' : Text) :
    wordEnds (front ++ '"' :: back') = wordEnds (front ++ '"' :: back) := by
  cases front <;> rfl

/-- **What follows a double quote closes no block.** -/
theorem stopsAtQuote_closesBlock : StopsAtQuote closesBlock := by
  intro front back back'
  unfold closesBlock
  rw [after?_trimStart_quote (by decide), after?_trimStart_quote (by decide)]
  cases Text.after? "end".toList (Text.trimStart front) with
  | none => rfl
  | some rest => cases rest <;> rfl

theorem stopsAtQuote_opensInput : StopsAtQuote opensInput := by
  intro front back back'
  unfold opensInput
  rw [after?_trimStart_quote (by decide), after?_trimStart_quote (by decide)]
  cases Text.after? "inp".toList (Text.trimStart front) with
  | none => rfl
  | some rest =>
    dsimp only [Option.map_some]
    rw [skipLetters_append_cons (by decide), skipLetters_append_cons (by decide)]
    exact wordEnds_quote _ back back'

/-- The word after `program` need not be the same, but either there is none, or all that is asked of
it is. -/
theorem programWord?_quote (front back back' : Text) :
    (programWord? (front ++ '"' :: back) = none ∧ programWord? (front ++ '"' :: back') = none) ∨
      ∃ word word', programWord? (front ++ '"' :: back) = some word ∧
        programWord? (front ++ '"' :: back') = some word' ∧
        ∀ beginning, '"' ∉ beginning →
          Text.startsWith beginning word' = Text.startsWith beginning word := by
  unfold programWord?
  rw [after?_trimStart_quote (by decide), after?_trimStart_quote (by decide)]
  cases Text.after? "pr".toList (Text.trimStart front) with
  | none => exact .inl ⟨rfl, rfl⟩
  | some rest =>
    dsimp only [Option.map_some]
    rw [skipLetters_append_cons (by decide), skipLetters_append_cons (by decide)]
    generalize skipLetters "ogram".toList rest = after
    have head : ∀ t : Text, ((after ++ '"' :: t).head?.any fun c => c == ' ' || c == '\t')
        = ((after ++ ['"']).head?.any fun c => c == ' ' || c == '\t') := by
      intro t
      cases after <;> rfl
    rw [Comments.dropWhile_append_cons (by decide), Comments.dropWhile_append_cons (by decide),
      head back, head back']
    generalize after.dropWhile (fun c => c == ' ' || c == '\t') = start
    -- a blank ends the word before the quote, or the quote belongs to the word
    by_cases ends : (start.takeWhile fun c => !isBlank c).length = start.length
    · have word : ∀ t : Text, (start ++ '"' :: t).takeWhile (fun c => !isBlank c)
          = start ++ '"' :: t.takeWhile fun c => !isBlank c := by
        intro t
        rw [List.takeWhile_append, if_pos ends, List.takeWhile_cons_of_pos (by decide)]
      rw [word, word]
      split
      · rename_i found
        rw [if_pos ⟨found.1, by simp⟩]
        exact .inr ⟨_, _, rfl, rfl, fun beginning h => Text.stopsAtQuote_startsWith h start _ _⟩
      · rename_i missing
        rw [if_neg fun found => missing ⟨found.1, by simp⟩]
        exact .inl ⟨rfl, rfl⟩
    · rw [List.takeWhile_append, List.takeWhile_append, if_neg ends, if_neg ends]
      split
      · exact .inr ⟨_, _, rfl, rfl, fun _ _ => rfl⟩
      · exact .inl ⟨rfl, rfl⟩

/-- **What follows a double quote opens no block.** -/
theorem stopsAtQuote_opensEndBlock : StopsAtQuote opensEndBlock := by
  intro front back back'
  unfold opensEndBlock
  rw [stopsAtQuote_opensInput front back back', opensMata_quote, opensMata_quote]
  rcases programWord?_quote front back back' with ⟨none, none'⟩ | ⟨word, word', some, some', same⟩
  · rw [none, none']
  · rw [some, some']
    dsimp only
    rw [same _ (by decide), same _ (by decide), same _ (by decide)]

end Line

end DoRunner
