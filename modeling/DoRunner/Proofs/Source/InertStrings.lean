import DoRunner.Proofs.Source.BlockTokens
import DoRunner.Proofs.Source.Literals
import DoRunner.Proofs.Source.Ways

/-!
# The contents of strings

Comment markers, terminators, braces and directives do nothing inside a string in plain quotes. That
takes three observations. What is done before the string does not depend on its contents, since
nothing that is looked for reaches over a double quote (`Goes.replace`). Within the string the
scanner reads one character after another until the quote (`Comments.goes_literal`,
`Blocks.goes_literal`). And behind the string no question about what has been read reaches back over
that quote (`Past.SameBut.alike`).

So two texts that differ in the contents of one string are read alike by both passes
(`contents_inert`).
-/

namespace DoRunner

/-- Whether the mode is inside a comment. -/
def Mode.isComment : Mode → Bool
  | blockComment _ | starComment | lineComment | continuation => true
  | _ => false

namespace ModeStack

/-- The scanner is inside no string and no comment. -/
structure Outside (modes : ModeStack) : Prop where
  noString : modes.top.isString = false
  noComment : modes.top.isComment = false

theorem Outside.top_eq {modes : ModeStack} (h : modes.Outside) :
    modes.top = .root ∨ (∃ depth, modes.top = .braceBlock depth) ∨ modes.top = .endBlock := by
  obtain ⟨noString, noComment⟩ := h
  cases htop : modes.top with
  | root => exact .inl rfl
  | braceBlock depth => exact .inr (.inl ⟨depth, rfl⟩)
  | endBlock => exact .inr (.inr rfl)
  | plainString => rw [htop] at noString; exact Bool.noConfusion noString
  | compoundString depth => rw [htop] at noString; exact Bool.noConfusion noString
  | blockComment depth => rw [htop] at noComment; exact Bool.noConfusion noComment
  | starComment => rw [htop] at noComment; exact Bool.noConfusion noComment
  | lineComment => rw [htop] at noComment; exact Bool.noConfusion noComment
  | continuation => rw [htop] at noComment; exact Bool.noConfusion noComment

theorem push_plainString (modes : ModeStack) :
    modes.push .plainString = ⟨.plainString :: modes.entered⟩ := by
  obtain ⟨entered⟩ := modes
  rcases entered with _ | ⟨mode, outer⟩
  · rfl
  · cases mode <;> rfl

theorem top_push_plainString (modes : ModeStack) :
    (modes.push .plainString).top = .plainString := by
  rw [push_plainString]
  rfl

theorem pop_push_plainString (modes : ModeStack) : (modes.push .plainString).pop = modes := by
  rw [push_plainString]
  rfl

theorem openBlocks_push_plainString (modes : ModeStack) :
    (modes.push .plainString).openBlocks = modes.openBlocks := by
  rw [push_plainString]
  exact Nat.zero_add _

end ModeStack

theorem Text.IsContents.tail {c : Char} {contents : Text} (h : Text.IsContents (c :: contents)) :
    Text.IsContents contents :=
  ⟨fun m => h.noQuote (List.mem_cons_of_mem c m), fun m => h.oneLine (List.mem_cons_of_mem c m)⟩

/-- Whether a backquote is the last that was read is seen from the text. -/
theorem Past.afterBackquote_of_text {past : Past} (h : past.text.getLast? ≠ some '\x60') :
    past.afterBackquote = false := by
  cases past with
  | nil => rfl
  | cons mark past =>
    refine beq_false_of_ne fun backquote => h ?_
    rw [Past.text, List.getLast?_reverse, List.map_cons, List.head?_cons, backquote]

namespace Quote

theorem opens?_of_notAfterBackquote {past : Past} (opens : past.afterBackquote = false) (rest : Text) :
    opens? past ('"' :: rest) = some (.plainString, 0) := by
  rw [opens?, opens, if_neg Bool.false_ne_true]

section Within

variable {modes : ModeStack} (string : modes.top = .plainString)

include string

theorem step_within {c : Char} (hc : c ≠ '"') (rest : Text) :
    step modes (c :: rest) = (modes, 0) := by
  have open' : closesPlain (c :: rest) = false := by
    rw [closesPlain_eq, show "\"'".toList = '"' :: "'".toList from rfl,
      show "\"".toList = '"' :: [] from rfl, Text.startsWith_cons_of_ne hc,
      Text.startsWith_cons_of_ne hc]
    rfl
  rw [step_eq, string]
  dsimp only
  rw [open', if_neg Bool.false_ne_true]

theorem step_closing {back : Text} (closes : back.head? ≠ some '\'') :
    step modes ('"' :: back) = (modes.pop, 0) := by
  have closed : closesPlain ('"' :: back) = true := by
    rcases back with _ | ⟨d, back⟩
    · rfl
    · have apart : d ≠ '\'' := fun e => closes (congrArg some e)
      simp [closesPlain, apart]
  rw [step_eq, string]
  dsimp only
  rw [closed, if_pos rfl]

end Within

end Quote

/-! ## Through a string -/

namespace Goes

variable {σ : Type} {pass : Pass σ} {kind : TokenKind} {modes : ModeStack} {within : Past → σ}

/-- Within a string one character after another is read. -/
theorem contents (inside : ∀ past, pass.modes (within past) = modes)
    (reads : ∀ past c rest, c ≠ '"' → c ≠ '\n' →
      pass.step (within past) c rest = (within (⟨kind, c⟩ :: past), rest))
    {contents : Text} (isContents : Text.IsContents contents) (past : Past) (rest : Text) :
    Goes pass (within past) (contents ++ rest) (List.replicate contents.length modes)
      (within (past.extend kind contents)) rest := by
  induction contents generalizing past with
  | nil => exact stay
  | cons c contents ih =>
    have noQuote : c ≠ '"' := fun e => isContents.noQuote (e ▸ List.mem_cons_self)
    have noLf : c ≠ '\n' := fun e => isContents.oneLine (e ▸ List.mem_cons_self)
    have first := once (reads past c (contents ++ rest) noQuote noLf)
    rw [inside] at first
    exact first.trans (ih isContents.tail _)

/-- **A string literal is read as one,** whatever its contents are. `within` and `behind` give the
states in the string and behind it, each by what has been read then. -/
theorem literal {s : σ} {past : Past} {behind : Past → σ} {back : Text}
    (opening : ∀ rest, pass.step s '"' rest = (within (⟨kind, '"'⟩ :: past), rest))
    (inside : ∀ past, pass.modes (within past) = modes)
    (reads : ∀ past c rest, c ≠ '"' → c ≠ '\n' →
      pass.step (within past) c rest = (within (⟨kind, c⟩ :: past), rest))
    (closing : ∀ past, pass.step (within past) '"' back = (behind (⟨kind, '"'⟩ :: past), back))
    {contents : Text} (isContents : Text.IsContents contents) :
    Goes pass s (Text.withLiteral [] contents back)
      (pass.modes s :: List.replicate (contents.length + 1) modes)
      (behind (past.extend kind (Text.literal contents))) back := by
  have last := once (closing (Past.extend (⟨kind, '"'⟩ :: past) kind contents))
  rw [inside] at last
  rw [List.replicate_succ', Past.extend_literal]
  exact (once (opening _)).trans ((Goes.contents inside reads isContents _ _).trans last)

end Goes

/-! ## Two texts on the same way -/

namespace Pass

variable {σ : Type} (pass : Pass σ)

/-- The way through a text that has a string in it, and the way through the text with other contents
of the string. Up to the string, where the pass is in the state `s₀`, both ways are the same; in the
string the pass is inside of a plain string only, for as many steps as the contents have characters
and one more; and behind the string it goes through the same modes again. -/
def SameWay (start : σ) (p contents contents' s : Text) (through : List ModeStack) (s₀ : σ) :
    Prop :=
  ∃ (within : ModeStack) (s₁ s₁' : σ) (behind : List ModeStack) (t t' : σ),
    within.top = .plainString ∧
    Goes pass start (p.withLiteral contents' s) through s₀ (Text.withLiteral [] contents' s) ∧
    Goes pass s₀ (Text.withLiteral [] contents s)
      (pass.modes s₀ :: List.replicate (contents.length + 1) within) s₁ s ∧
    Goes pass s₀ (Text.withLiteral [] contents' s)
      (pass.modes s₀ :: List.replicate (contents'.length + 1) within) s₁' s ∧
    Goes pass s₁ s behind t [] ∧ Goes pass s₁' s behind t' [] ∧ pass.modes t' = pass.modes t

end Pass

/-- **Two texts are on the same way** when what they lead to behind the string stays together. -/
theorem Goes.sameWay {σ : Type} {pass : Pass σ} {R : σ → σ → Prop}
    (modes : ∀ {s s'}, R s s' → pass.modes s' = pass.modes s)
    (steps : ∀ {s s'}, R s s' → ∀ c rest, R (pass.step s c rest).1 (pass.step s' c rest).1 ∧
      (pass.step s' c rest).2 = (pass.step s c rest).2)
    {start s₀ s₁ s₁' : σ} {p contents contents' s : Text} {through : List ModeStack}
    {within : ModeStack} (string : within.top = .plainString)
    (ahead : Goes pass start (p.withLiteral contents s) through s₀ (Text.withLiteral [] contents s))
    (reads : Goes pass s₀ (Text.withLiteral [] contents s)
      (pass.modes s₀ :: List.replicate (contents.length + 1) within) s₁ s)
    (reads' : Goes pass s₀ (Text.withLiteral [] contents' s)
      (pass.modes s₀ :: List.replicate (contents'.length + 1) within) s₁' s)
    (together : R s₁ s₁') :
    pass.SameWay start p contents contents' s through s₀ ∧
      R (pass.run start (p.withLiteral contents s))
        (pass.run start (p.withLiteral contents' s)) := by
  have ahead' : Goes pass start (p.withLiteral contents' s) through s₀
      (Text.withLiteral [] contents' s) := ahead.replace (contents' ++ '"' :: s)
  obtain ⟨behind, whole⟩ := @Goes.exists_whole _ pass s₁ s
  obtain ⟨t', whole', both⟩ := whole.alongside modes steps together
  have final : pass.run start (p.withLiteral contents s) = pass.run s₁ s := by
    rw [ahead.run_eq, reads.run_eq]
  have final' : pass.run start (p.withLiteral contents' s) = t' := by
    rw [ahead'.run_eq, reads'.run_eq, whole'.run_eq, pass.run_nil]
  rw [final, final']
  exact ⟨⟨within, s₁, s₁', behind, _, t', string, ahead', reads, reads', whole, whole', modes both⟩,
    both⟩

/-! ## The comment pass -/

namespace Comments

/-- No opener of a whole line stands at a double quote, and the string opens. -/
theorem act_opening {s : State} (outside : s.modes.Outside) (opens : s.past.afterBackquote = false)
    (rest : Text) :
    act s ('"' :: rest)
      = (⟨literalKind s.delimiter, 0, s.modes.push .plainString⟩, s.delimiter, s.inMata) := by
  have root : act s ('"' :: rest) = rootStep s ('"' :: rest) := by
    rcases outside.top_eq with htop | ⟨depth, htop⟩ | htop <;> rw [act, htop]
  have quote := Quote.opens?_of_notAfterBackquote opens rest
  have directive : Line.directive? (Text.firstLine ('"' :: rest)) = none :=
    (Line.stopsAtQuote_directive?.firstLine [] [] rest).trans (by decide)
  have mata : mataAfter s.inMata (Text.firstLine ('"' :: rest)) = s.inMata := by
    refine ((stopsAtQuote_mataAfter s.inMata).firstLine [] [] rest).trans ?_
    cases s.inMata <;> decide
  have star : starOpener? ('"' :: rest) = none := rfl
  have plain : plainMove s ('"' :: rest) = ⟨.stringLiteral, 0, s.modes.push .plainString⟩ := by
    rw [plainMove, quote]
    rfl
  have explicit : ∀ terminator, explicitMove s terminator ('"' :: rest)
      = ⟨.namespaceBody, 0, s.modes.push .plainString⟩ := by
    intro terminator
    rw [explicitMove, quote]
    rfl
  rw [root]
  unfold rootStep
  cases s.delimiter with
  | newline =>
    dsimp only
    rw [directive, mata, star, plain, @if_neg (none = some Line.Directive.explicit) _ (by simp),
      ite_self]
    exact ite_self _
  | explicit terminator =>
    dsimp only
    rw [directive, star, explicit, @if_neg (none = some Line.Directive.newline) _ (by simp)]
    exact ite_self _

theorem step_opening {s : State} (outside : s.modes.Outside) (opens : s.past.afterBackquote = false)
    (rest : Text) :
    step s '"' rest
      = ({ s with
           modes := s.modes.push .plainString
           past := ⟨literalKind s.delimiter, '"'⟩ :: s.past }, rest) := by
  have settled : settle s '"' = s := by
    rcases outside.top_eq with htop | ⟨depth, htop⟩ | htop <;> rw [settle, htop]
  exact step_of_act settled (act_opening outside opens rest)

section Within

variable {s : State} (string : s.modes.top = .plainString)

include string

theorem step_within {c : Char} (noQuote : c ≠ '"') (noLf : c ≠ '\n') (rest : Text) :
    step s c rest = ({ s with past := ⟨literalKind s.delimiter, c⟩ :: s.past }, rest) := by
  have settled : settle s c = s := by
    rw [settle, string]
    exact if_neg noLf
  have acts : act s (c :: rest)
      = (⟨literalKind s.delimiter, 0, s.modes⟩, s.delimiter, s.inMata) := by
    rw [act, string]
    dsimp only
    rw [stringMove, Quote.step_within string noQuote]
    rfl
  exact step_of_act settled acts

theorem step_closing {back : Text} (closes : back.head? ≠ some '\'') :
    step s '"' back
      = ({ s with
           modes := s.modes.pop
           past := ⟨literalKind s.delimiter, '"'⟩ :: s.past }, back) := by
  have settled : settle s '"' = s := by
    rw [settle, string]
    rfl
  have acts : act s ('"' :: back)
      = (⟨literalKind s.delimiter, 0, s.modes.pop⟩, s.delimiter, s.inMata) := by
    rw [act, string]
    dsimp only
    rw [stringMove, Quote.step_closing string closes]
    rfl
  exact step_of_act settled acts

end Within

/-- **A string literal is read as one,** whatever its contents are. -/
theorem goes_literal {s : State} (outside : s.modes.Outside)
    (opens : s.past.afterBackquote = false) {contents back : Text}
    (isContents : Text.IsContents contents) (closes : back.head? ≠ some '\'') :
    Goes pass s (Text.withLiteral [] contents back)
      (s.modes :: List.replicate (contents.length + 1) (s.modes.push .plainString))
      { s with past := s.past.extend (literalKind s.delimiter) (Text.literal contents) } back := by
  have string := s.modes.top_push_plainString
  let within (past : Past) : State := { s with modes := s.modes.push .plainString, past }
  let behind (past : Past) : State := { s with past }
  have closing : ∀ past, step (within past) '"' back
      = (behind (⟨literalKind s.delimiter, '"'⟩ :: past), back) := by
    intro past
    rw [@step_closing (within past) string back closes]
    dsimp only [within]
    rw [s.modes.pop_push_plainString]
  exact @Goes.literal _ pass _ _ within s s.past behind back (step_opening outside opens)
    (fun _ => rfl)
    (fun past _ rest noQuote noLf => @step_within (within past) string _ noQuote noLf rest)
    closing contents isContents

/-- Two states between which only the pasts differ, and these only in the contents of a string. -/
structure SameBut (front contents contents' : Text) (s s' : State) : Prop where
  /-- Both are inside of the same. -/
  modes : s'.modes = s.modes
  /-- The same ends a statement. -/
  delimiter : s'.delimiter = s.delimiter
  /-- Both belong to a mata region, or neither does. -/
  inMata : s'.inMata = s.inMata
  /-- The marks are the same but for the contents. -/
  past : Past.SameBut front contents contents' s.past s'.past

section SameBut

variable {front contents contents' : Text} {s s' : State}
  (h : SameBut front contents contents' s s')

include h

theorem settle_sameBut (c : Char) :
    SameBut front contents contents' (settle s c) (settle s' c) where
  modes := settle_modes_congr h.modes h.delimiter c
  delimiter := by rw [settle_delimiter, settle_delimiter, h.delimiter]
  inMata := by rw [settle_inMata, settle_inMata, h.inMata]
  past := by
    rw [settle_past, settle_past]
    exact h.past

theorem act_sameBut (rest : Text) : act s' rest = act s rest := by
  obtain ⟨alike, ink⟩ := h.past.alike
  exact act_congr h.modes h.delimiter h.inMata alike
    (slashesAgree_of_ink h.modes alike rest fun _ => ink)

/-- **A step behind the string** does not depend on its contents. -/
theorem step_sameBut (c : Char) (rest : Text) :
    SameBut front contents contents' (step s c rest).1 (step s' c rest).1 ∧
      (step s' c rest).2 = (step s c rest).2 := by
  have settled := settle_sameBut h c
  unfold step
  dsimp only
  rw [act_sameBut settled]
  exact ⟨⟨rfl, rfl, rfl, settled.past.extend _ _⟩, rfl⟩

end SameBut

/-- **The comment pass reads both texts alike.** -/
theorem goes_sameWay {p contents contents' s : Text} (isContents : Text.IsContents contents)
    (isContents' : Text.IsContents contents') (closes : s.head? ≠ some '\'')
    (opens : p.getLast? ≠ some '\x60') {initial : DelimiterMode} {through : List ModeStack}
    {s₀ : State}
    (ahead : Goes pass (.initial initial) (p.withLiteral contents s) through s₀
      (Text.withLiteral [] contents s)) (outside : s₀.modes.Outside) :
    pass.SameWay (.initial initial) p contents contents' s through s₀ ∧
      SameBut p contents contents' (run (.initial initial) (p.withLiteral contents s))
        (run (.initial initial) (p.withLiteral contents' s)) := by
  -- what has been read is `p`, so no backquote is the last of it
  have text : s₀.past.text = p := List.append_cancel_right ahead.text_eq
  have quote := Past.afterBackquote_of_text (by rwa [text])
  refine Goes.sameWay (R := SameBut p contents contents') (fun h => h.modes) step_sameBut
    s₀.modes.top_push_plainString ahead
    (goes_literal outside quote isContents closes) (goes_literal outside quote isContents' closes)
    ⟨rfl, rfl, rfl, ?_⟩
  rw [← text]
  exact .refl_extend (plain_literalKind s₀.delimiter)

end Comments

/-! ## The block pass -/

namespace Blocks

/-- The kind of a string literal. -/
def literalKind (modes : ModeStack) : TokenKind :=
  if modes.inBlock then .blockBody else .stringLiteral

theorem plain_literalKind (modes : ModeStack) : (literalKind modes).isDelimiter = false := by
  unfold literalKind
  split <;> rfl

theorem literalKind_push_plainString (modes : ModeStack) :
    literalKind (modes.push .plainString) = literalKind modes := by
  rw [literalKind, ModeStack.inBlock, modes.openBlocks_push_plainString]
  rfl

/-- No block opens or closes at a double quote, and the string opens. -/
theorem act_opening {s : State} (stack : BlockStack s.modes.entered) (outside : s.modes.Outside)
    (opens : s.past.afterBackquote = false) (rest : Text) :
    act s ('"' :: rest) = ⟨literalKind s.modes, 0, s.modes.push .plainString, false⟩ := by
  have quote := Quote.opens?_of_notAfterBackquote opens rest
  have noBlock : Line.opensEndBlock (Text.firstLine ('"' :: rest)) = false :=
    (Line.stopsAtQuote_opensEndBlock.firstLine [] [] rest).trans (by decide)
  have noEnd : Line.closesBlock (Text.firstLine ('"' :: rest)) = false :=
    (Line.stopsAtQuote_closesBlock.firstLine [] [] rest).trans (by decide)
  obtain ⟨⟨entered⟩, past⟩ := s
  -- the kind of the string is that of the blocks around it
  cases stack with
  | plainString around => exact Bool.noConfusion outside.noString
  | compoundString outer around => exact Bool.noConfusion outside.noString
  | outside around =>
    cases around with
    | nothing =>
      show rootMove _ _ = _
      rw [rootMove_cons, noBlock, quote, if_neg (by simp)]
      rfl
    | braces outer =>
      show braceMove _ _ = _
      have block : literalKind ⟨[.braceBlock (outer + 1)]⟩ = .blockBody :=
        if_pos (decide_eq_true (Nat.succ_pos _))
      rw [braceMove_cons, quote, block]
    | endBlock =>
      show endBlockMove _ _ = _
      rw [endBlockMove, noEnd, quote, if_neg (by simp)]
      rfl

theorem step_opening {s : State} (stack : BlockStack s.modes.entered) (outside : s.modes.Outside)
    (opens : s.past.afterBackquote = false) (rest : Text) :
    step s '"' rest
      = (⟨s.modes.push .plainString, ⟨literalKind s.modes, '"'⟩ :: s.past⟩, rest) := by
  have settled : settle s '"' = s := if_neg fun found => absurd found.2 (by decide)
  exact step_eq_of_act settled (act_opening stack outside opens rest)

section Within

variable {s : State} (string : s.modes.top = .plainString)

include string

theorem step_within {c : Char} (noQuote : c ≠ '"') (noLf : c ≠ '\n') (rest : Text) :
    step s c rest = (⟨s.modes, ⟨literalKind s.modes, c⟩ :: s.past⟩, rest) := by
  have settled : settle s c = s := if_neg fun found => noLf found.2
  have acts : act s (c :: rest) = ⟨literalKind s.modes, 0, s.modes, false⟩ := by
    rw [act, string]
    dsimp only
    rw [stringMove, Quote.step_within string noQuote]
    rfl
  exact step_eq_of_act settled acts

theorem step_closing {back : Text} (closes : back.head? ≠ some '\'') :
    step s '"' back = (⟨s.modes.pop, ⟨literalKind s.modes.pop, '"'⟩ :: s.past⟩, back) := by
  have settled : settle s '"' = s := if_neg fun found => absurd found.2 (by decide)
  have acts : act s ('"' :: back) = ⟨literalKind s.modes.pop, 0, s.modes.pop, false⟩ := by
    rw [act, string]
    dsimp only
    rw [stringMove, Quote.step_closing string closes]
    rfl
  exact step_eq_of_act settled acts

end Within

/-- **A string literal is read as one,** whatever its contents are. -/
theorem goes_literal {s : State} (stack : BlockStack s.modes.entered) (outside : s.modes.Outside)
    (opens : s.past.afterBackquote = false) {contents back : Text}
    (isContents : Text.IsContents contents) (closes : back.head? ≠ some '\'') :
    Goes pass s (Text.withLiteral [] contents back)
      (s.modes :: List.replicate (contents.length + 1) (s.modes.push .plainString))
      { s with past := s.past.extend (literalKind s.modes) (Text.literal contents) } back := by
  have string := s.modes.top_push_plainString
  have kind := literalKind_push_plainString s.modes
  let within (past : Past) : State := ⟨s.modes.push .plainString, past⟩
  let behind (past : Past) : State := ⟨s.modes, past⟩
  have reads : ∀ past c rest, c ≠ '"' → c ≠ '\n' →
      step (within past) c rest = (within (⟨literalKind s.modes, c⟩ :: past), rest) := by
    intro past c rest noQuote noLf
    rw [@step_within (within past) string c noQuote noLf rest, kind]
  have closing : ∀ past, step (within past) '"' back
      = (behind (⟨literalKind s.modes, '"'⟩ :: past), back) := by
    intro past
    rw [@step_closing (within past) string back closes]
    dsimp only [within]
    rw [s.modes.pop_push_plainString]
  exact @Goes.literal _ pass _ _ within s s.past behind back (step_opening stack outside opens)
    (fun _ => rfl) reads closing contents isContents

/-- Two states between which only the pasts differ, and these only in the contents of a string. -/
structure SameBut (front contents contents' : Text) (s s' : State) : Prop where
  /-- Both are inside of the same. -/
  modes : s'.modes = s.modes
  /-- The marks are the same but for the contents. -/
  past : Past.SameBut front contents contents' s.past s'.past

/-- Only a brace claims its line, and it is of the kind that it claims the line for. -/
theorem step_sameBut {front contents contents' : Text} (isContents : Text.IsContents contents)
    (isContents' : Text.IsContents contents') {s s' : State}
    (h : SameBut front contents contents' s s') (c : Char) (rest : Text) :
    SameBut front contents contents' (step s c rest).1 (step s' c rest).1 ∧
      (step s' c rest).2 = (step s c rest).2 := by
  have settled : SameBut front contents contents' (settle s c) (settle s' c) := by
    unfold settle
    rw [h.modes]
    split
    · exact ⟨rfl, h.past⟩
    · exact h
  have alike := settled.past.alike.1
  have acts : act (settle s' c) (c :: rest) = act (settle s c) (c :: rest) :=
    act_alike ⟨settled.modes, alike.atLineStart, alike.afterBackquote⟩ _
  unfold step
  dsimp only
  rw [acts]
  refine ⟨⟨rfl, Past.SameBut.extend ?_ _ _⟩, rfl⟩
  split
  · exact settled.past.remarkLine isContents isContents' rfl
  · exact settled.past

/-- **The block pass reads both texts alike.** -/
theorem goes_sameWay {p contents contents' s : Text} (isContents : Text.IsContents contents)
    (isContents' : Text.IsContents contents') (closes : s.head? ≠ some '\'')
    (opens : p.getLast? ≠ some '\x60') {through : List ModeStack} {s₀ : State}
    (ahead : Goes pass .initial (p.withLiteral contents s) through s₀
      (Text.withLiteral [] contents s)) (outside : s₀.modes.Outside) :
    pass.SameWay .initial p contents contents' s through s₀ ∧
      SameBut p contents contents' (run .initial (p.withLiteral contents s))
        (run .initial (p.withLiteral contents' s)) := by
  have text : s₀.past.text = p := List.append_cancel_right ahead.text_eq
  have quote := Past.afterBackquote_of_text (by rwa [text])
  have sound : Sound s₀ := ahead.invariant (fun _ c rest h => step_sound h c rest) sound_initial
  refine Goes.sameWay (R := SameBut p contents contents') (fun h => h.modes)
    (step_sameBut isContents isContents') s₀.modes.top_push_plainString ahead
    (goes_literal sound.stack outside quote isContents closes)
    (goes_literal sound.stack outside quote isContents' closes) ⟨rfl, ?_⟩
  rw [← text]
  exact .refl_extend (plain_literalKind s₀.modes)

end Blocks

/-! ## Both passes -/

/-- **The contents of strings are inert.** Where a pass comes to a double quote behind `p`, outside
strings and comments and not after a backquote, it goes the same way whatever the contents of the
string are that opens there. The tokens are the same but for those contents, the comment pass ends
in the same comment, if any, and in the same delimiter mode, and the block pass leaves as many blocks
open. -/
theorem contents_inert {p contents contents' s : Text} (isContents : Text.IsContents contents)
    (isContents' : Text.IsContents contents') (closes : s.head? ≠ some '\'')
    (opens : p.getLast? ≠ some '\x60') :
    (∀ (initial : DelimiterMode) (through : List ModeStack) (s₀ : Comments.State),
      Goes Comments.pass (.initial initial) (p.withLiteral contents s) through s₀
        (Text.withLiteral [] contents s) →
      s₀.modes.Outside →
      Comments.pass.SameWay (.initial initial) p contents contents' s through s₀ ∧
      Token.SameBut p contents contents' s (scanComments (p.withLiteral contents s) initial).tokens
        (scanComments (p.withLiteral contents' s) initial).tokens ∧
      (scanComments (p.withLiteral contents' s) initial).endState
        = (scanComments (p.withLiteral contents s) initial).endState ∧
      (scanComments (p.withLiteral contents' s) initial).finalMode
        = (scanComments (p.withLiteral contents s) initial).finalMode) ∧
    ∀ (through : List ModeStack) (s₀ : Blocks.State),
      Goes Blocks.pass .initial (p.withLiteral contents s) through s₀
        (Text.withLiteral [] contents s) →
      s₀.modes.Outside →
      Blocks.pass.SameWay .initial p contents contents' s through s₀ ∧
      Token.SameBut p contents contents' s (scanBlocks (p.withLiteral contents s)).tokens
        (scanBlocks (p.withLiteral contents' s)).tokens ∧
      (scanBlocks (p.withLiteral contents' s)).openBlocks
        = (scanBlocks (p.withLiteral contents s)).openBlocks := by
  constructor
  · intro initial through s₀ ahead outside
    obtain ⟨way, final⟩ :=
      Comments.goes_sameWay isContents isContents' closes opens ahead outside
    refine ⟨way, final.past.ofMarks (Comments.text_run _ _), ?_, final.delimiter⟩
    unfold scanComments
    dsimp only
    rw [final.past.head?_kind, final.modes]
  · intro through s₀ ahead outside
    obtain ⟨way, final⟩ := Blocks.goes_sameWay isContents isContents' closes opens ahead outside
    refine ⟨way, final.past.ofMarks (Blocks.text_run _ _), ?_⟩
    unfold scanBlocks
    dsimp only
    rw [final.modes]

/-- A directive, a terminator and a brace in the place of a comment. -/
theorem contents_inert_markers :
    ∃ (s₀ : Comments.State) (s₁ : Blocks.State),
      Goes Comments.pass (.initial .newline)
        (Text.withLiteral "x ".toList "/* no".toList " // yes\n".toList) [.atRoot, .atRoot] s₀
        (Text.withLiteral [] "/* no".toList " // yes\n".toList) ∧
      Goes Blocks.pass .initial
        (Text.withLiteral "x ".toList "/* no".toList " // yes\n".toList) [.atRoot, .atRoot] s₁
        (Text.withLiteral [] "/* no".toList " // yes\n".toList) ∧
      Token.SameBut "x ".toList "/* no".toList "#d ; \x7b".toList " // yes\n".toList
        (scanComments (Text.withLiteral "x ".toList "/* no".toList " // yes\n".toList)
          .newline).tokens
        (scanComments (Text.withLiteral "x ".toList "#d ; \x7b".toList " // yes\n".toList)
          .newline).tokens ∧
      Token.SameBut "x ".toList "/* no".toList "#d ; \x7b".toList " // yes\n".toList
        (scanBlocks (Text.withLiteral "x ".toList "/* no".toList " // yes\n".toList)).tokens
        (scanBlocks (Text.withLiteral "x ".toList "#d ; \x7b".toList " // yes\n".toList)).tokens := by
  have first : Comments.pass.step (.initial .newline) 'x'
      (Text.withLiteral " ".toList "/* no".toList " // yes\n".toList)
      = (⟨.atRoot, .newline, none, false, [⟨.plainText, 'x'⟩]⟩,
        Text.withLiteral " ".toList "/* no".toList " // yes\n".toList) := by decide
  have second : Comments.pass.step ⟨.atRoot, .newline, none, false, [⟨.plainText, 'x'⟩]⟩ ' '
      (Text.withLiteral [] "/* no".toList " // yes\n".toList)
      = (⟨.atRoot, .newline, none, false, [⟨.plainText, ' '⟩, ⟨.plainText, 'x'⟩]⟩,
        Text.withLiteral [] "/* no".toList " // yes\n".toList) := by decide
  have first' : Blocks.pass.step .initial 'x'
      (Text.withLiteral " ".toList "/* no".toList " // yes\n".toList)
      = (⟨.atRoot, [⟨.plainText, 'x'⟩]⟩,
        Text.withLiteral " ".toList "/* no".toList " // yes\n".toList) := by decide
  have second' : Blocks.pass.step ⟨.atRoot, [⟨.plainText, 'x'⟩]⟩ ' '
      (Text.withLiteral [] "/* no".toList " // yes\n".toList)
      = (⟨.atRoot, [⟨.plainText, ' '⟩, ⟨.plainText, 'x'⟩]⟩,
        Text.withLiteral [] "/* no".toList " // yes\n".toList) := by decide
  have ahead := (Goes.once first).trans (Goes.once second)
  have ahead' := (Goes.once first').trans (Goes.once second')
  have both := @contents_inert "x ".toList "/* no".toList "#d ; \x7b".toList " // yes\n".toList
    ⟨by decide, by decide⟩ ⟨by decide, by decide⟩ (by decide) (by decide)
  exact ⟨_, _, ahead, ahead', (both.1 _ _ _ ahead ⟨rfl, rfl⟩).2.1,
    (both.2 _ _ ahead' ⟨rfl, rfl⟩).2.1⟩

end DoRunner
