import DoRunner.Proofs.Source.BlockPass
import DoRunner.Proofs.Source.CommentPass
import DoRunner.Source.Analysis

/-!
# Lines that open nothing

Comments open with slashes, strings with double quotes, and blocks with braces. Text without any of
them, on a line that does not start with something that matters to the line as a whole, goes through
both passes character by character, and comes out as it was.
-/

namespace DoRunner

/-- A text in which nothing opens or ends but statements. -/
def Text.Bare (t : Text) : Prop := ∀ c ∈ t, c ≠ '\n' ∧ c ≠ '"' ∧ c ≠ '/' ∧ c ≠ '\x7b'

instance (t : Text) : Decidable (Text.Bare t) := List.decidableBAll _ t

theorem Text.Bare.tail {c : Char} {t : Text} (h : Text.Bare (c :: t)) : Text.Bare t :=
  fun d m => h d (List.mem_cons_of_mem c m)

/-- A line that starts as a statement does. -/
structure Line.Ordinary (line : Text) : Prop where
  noDirective : Line.directive? line = none
  noMata : Line.opensMata line = false
  noStar : Comments.starOpener? line = none
  noBlock : Line.opensEndBlock line = false

/-- Nothing starts with a beginning of which a character is missing. -/
theorem Text.startsWith_of_notMem {beginning t : Text} {c : Char} (h : c ∈ beginning)
    (missing : c ∉ t) : startsWith beginning t = false := by
  refine Text.startsWith_eq_false fun rest whole => missing ?_
  rw [whole]
  exact List.mem_append_left _ h

theorem Text.Bare.firstLine {t : Text} (h : Text.Bare t) : Text.firstLine t = t :=
  Text.firstLine_of_notMem fun m => (h _ m).1 rfl

theorem Text.Bare.notMem_quote {t : Text} (h : Text.Bare t) : '"' ∉ t := fun m => (h _ m).2.1 rfl

theorem Quote.opens?_of_notMem {t : Text} (missing : '"' ∉ t) (past : Past) :
    opens? past t = none := by
  rw [opens?_eq, Text.startsWith_of_notMem (c := '"') (by decide) missing,
    Text.startsWith_of_notMem (c := '"') (by decide) missing]
  rfl

namespace Comments

theorem slashComment?_of_bare {t : Text} (h : Text.Bare t) (s : State) (allowed : Past → Bool) :
    slashComment? s allowed t = none :=
  slashComment?_of_noSlash (fun first => (h _ (List.mem_of_head? first)).2.2.1 rfl) s allowed

/-- How statement text is marked. -/
def bareKind : DelimiterMode → TokenKind
  | .newline => .plainText
  | .explicit _ => .namespaceBody

/-- Statement text is marked as such, character by character. -/
theorem act_bare {s : State} (root : s.modes = .atRoot) (noMata : s.inMata = false) {c : Char}
    {rest : Text} (bare : Text.Bare (c :: rest))
    (start : s.past.atLineStart = true → Line.Ordinary (c :: rest))
    (goesOn : s.delimiter ≠ .explicit c) :
    act s (c :: rest) = (⟨bareKind s.delimiter, 0, s.modes⟩, s.delimiter, s.inMata) := by
  have plain : plainMove s (c :: rest) = ⟨.plainText, 0, s.modes⟩ := by
    rw [plainMove, slashComment?_of_bare bare, Quote.opens?_of_notMem bare.notMem_quote]
  have explicit (terminator : Char) (apart : terminator ≠ c) :
      explicitMove s terminator (c :: rest) = ⟨.namespaceBody, 0, s.modes⟩ := by
    rw [explicitMove, slashComment?_of_bare bare, Quote.opens?_of_notMem bare.notMem_quote]
    exact if_neg fun here => apart (Option.some.inj here).symm
  have step : act s (c :: rest) = rootStep s (c :: rest) := by
    rw [act, root]
    rfl
  rw [step]
  unfold rootStep
  rw [bare.firstLine]
  cases hd : s.delimiter with
  | newline =>
    dsimp only
    split
    · rename_i begins
      obtain ⟨noDirective, opensNoMata, noStar, -⟩ := start begins
      have mata : mataAfter s.inMata (c :: rest) = s.inMata := by
        rw [mataAfter, noMata, if_neg Bool.false_ne_true, opensNoMata]
      rw [mata, noDirective, if_neg (by simp), noMata, if_neg Bool.false_ne_true, noStar, plain]
      rfl
    · rw [plain]
      rfl
  | explicit terminator =>
    have apart : terminator ≠ c := fun same => goesOn (by rw [hd, same])
    dsimp only
    split
    · rename_i begins
      obtain ⟨noDirective, -, noStar, -⟩ := start begins
      rw [noDirective, if_neg (by simp), noStar, explicit terminator apart]
      rfl
    · rw [explicit terminator apart]
      rfl

/-- **Bare text is read as statement text,** up to where a statement ends. -/
theorem run_bare {s : State} (root : s.modes = .atRoot) (noMata : s.inMata = false) {t more : Text}
    (bare : Text.Bare (t ++ more)) (start : s.past.atLineStart = true → Line.Ordinary (t ++ more))
    (goesOn : ∀ c ∈ t, s.delimiter ≠ .explicit c) :
    run s (t ++ more) = run { s with past := s.past.extend (bareKind s.delimiter) t } more := by
  induction t generalizing s with
  | nil => rfl
  | cons c t ih =>
    rw [List.cons_append] at bare start ⊢
    have settled : settle s c = s := by
      rw [settle, root]
      rfl
    have acts := act_bare root noMata bare start (goesOn c List.mem_cons_self)
    rw [run_cons, step_of_act settled acts]
    refine ih root noMata bare.tail ?_ fun d m => goesOn d (List.mem_cons_of_mem c m)
    -- behind a character that is no line feed no line starts
    intro begins
    exact absurd (beq_iff_eq.mp begins) (bare c List.mem_cons_self).1

/-- Inside a line the character that ends statements is read as just that. -/
theorem run_terminator {s : State} (root : s.modes = .atRoot) {terminator : Char}
    (explicit : s.delimiter = .explicit terminator) (inside : s.past.atLineStart = false)
    (bare : Text.Bare [terminator]) :
    run s [terminator] = { s with past := ⟨.semicolonDelimiter, terminator⟩ :: s.past } := by
  have settled : settle s terminator = s := by
    rw [settle, root]
    rfl
  have acts : act s [terminator] = (⟨.semicolonDelimiter, 0, s.modes⟩, s.delimiter, s.inMata) := by
    have step : act s [terminator] = rootStep s [terminator] := by
      rw [act, root]
      rfl
    rw [step, rootStep, explicit]
    dsimp only
    rw [inside, if_neg Bool.false_ne_true, explicitMove, slashComment?_of_bare bare,
      Quote.opens?_of_notMem bare.notMem_quote]
    dsimp only
    rw [List.head?_cons, if_pos rfl]
  rw [run_cons, step_of_act settled acts, run]

end Comments

namespace Blocks

theorem act_bare {s : State} (root : s.modes = .atRoot) {c : Char} {rest : Text}
    (bare : Text.Bare [c]) (noQuote : '"' ∉ c :: rest)
    (start : s.past.atLineStart = true →
      Line.opensEndBlock (Text.firstLine (c :: rest)) = false) :
    act s (c :: rest) = ⟨.plainText, 0, s.modes, false⟩ := by
  obtain ⟨noLf, -, -, noBrace⟩ := bare c List.mem_cons_self
  have noBlock : ¬ (s.past.atLineStart = true ∧
      Line.opensEndBlock (Text.firstLine (c :: rest)) = true) := by
    rintro ⟨begins, opens⟩
    rw [start begins] at opens
    exact absurd opens Bool.false_ne_true
  have step : act s (c :: rest) = rootMove s (c :: rest) := by
    rw [act, root]
    rfl
  rw [step, rootMove_cons, if_neg noBlock, Quote.opens?_of_notMem noQuote]
  dsimp only
  rw [if_neg noBrace, if_neg noLf]

/-- **Bare text opens no block.** -/
theorem run_bare {s : State} (root : s.modes = .atRoot) {t more : Text} (bare : Text.Bare t)
    (noQuote : '"' ∉ t ++ more)
    (start : s.past.atLineStart = true →
      Line.opensEndBlock (Text.firstLine (t ++ more)) = false) :
    run s (t ++ more) = run { s with past := s.past.extend .plainText t } more := by
  induction t generalizing s with
  | nil => rfl
  | cons c t ih =>
    rw [List.cons_append] at noQuote start ⊢
    have settled : settle s c = s := by
      rw [settle, root, if_neg (by simp [ModeStack.top, ModeStack.atRoot])]
    have one : Text.Bare [c] := fun d m => bare d (List.mem_cons.mpr (.inl (List.mem_singleton.mp m)))
    have acts := act_bare root one noQuote start
    rw [run_cons, step_eq_of_act settled acts]
    refine ih root bare.tail (fun m => noQuote (List.mem_cons_of_mem c m)) ?_
    intro begins
    exact absurd (beq_iff_eq.mp begins) (bare c List.mem_cons_self).1

end Blocks

end DoRunner
