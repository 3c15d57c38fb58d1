import DoRunner.Proofs.Source.Collecting

/-!
# Around a string literal

Two texts differ in nothing but the contents of one string literal. So do the marks that are made of
them, as long as the literal is of one kind, which may change with its line
(`Past.SameBut.remarkLine`). Whatever is asked of the marks behind it has the same answer then
(`Past.SameBut.alike`), and the tokens formed of the marks are the same, but for the one that holds
the literal (`Past.SameBut.ofMarks`).
-/

namespace DoRunner

namespace Text

/-- A string literal in plain quotes. -/
def literal (contents : Text) : Text := '"' :: (contents ++ ['"'])

/-- A text with a string literal in it. -/
def withLiteral (front contents back : Text) : Text := front ++ '"' :: (contents ++ '"' :: back)

/-- What can be the contents of a string in plain quotes. -/
structure IsContents (contents : Text) : Prop where
  /-- It does not end the string. -/
  noQuote : '"' ∉ contents
  /-- Nor does it end the line. -/
  oneLine : '\n' ∉ contents

theorem withLiteral_eq (front contents back : Text) :
    withLiteral front contents back = front ++ (literal contents ++ back) := by
  simp [withLiteral, literal]

theorem IsContents.oneLine_literal {contents : Text} (h : IsContents contents) :
    ∀ c ∈ literal contents, c ≠ '\n' := by
  rintro c m rfl
  rcases List.mem_cons.mp m with quote | m
  · exact absurd quote (by decide)
  · rcases List.mem_append.mp m with m | m
    · exact h.oneLine m
    · exact absurd m (by decide)

end Text

/-! ## Marks -/

namespace Past

theorem remarkLine_append_of_lf {marks : List Mark} (lf : ∃ mark ∈ marks, mark.char = '\n')
    (kind : TokenKind) (past : Past) :
    remarkLine kind (marks ++ past) = remarkLine kind marks ++ past := by
  obtain ⟨mark, m, hmark⟩ := lf
  have stops : ¬ ∀ mark ∈ marks, (mark.char != '\n') = true :=
    fun all => absurd hmark (bne_iff_ne.mp (all mark m))
  have taken : (marks.takeWhile fun mark => mark.char != '\n').length ≠ marks.length := fun same =>
    stops (List.takeWhile_eq_self_iff.mp ((List.takeWhile_prefix _).eq_of_length same))
  have dropped : (marks.dropWhile fun mark => mark.char != '\n').isEmpty ≠ true := fun none =>
    stops (List.dropWhile_eq_nil_iff.mp (List.isEmpty_iff.mp none))
  rw [remarkLine, List.takeWhile_append, List.dropWhile_append, if_neg taken, if_neg dropped,
    ← List.append_assoc]
  rfl

theorem remarkLine_append_of_oneLine {marks : List Mark}
    (oneLine : ∀ mark ∈ marks, mark.char ≠ '\n') (kind : TokenKind) (past : Past) :
    remarkLine kind (marks ++ past)
      = marks.map (fun mark => ⟨kind, mark.char⟩) ++ remarkLine kind past := by
  have goesOn : ∀ mark ∈ marks, (mark.char != '\n') = true :=
    fun mark m => bne_iff_ne.mpr (oneLine mark m)
  rw [remarkLine, List.takeWhile_append_of_pos goesOn, List.dropWhile_append_of_pos goesOn,
    List.map_append, List.append_assoc]
  rfl

/-- A literal is read up to its closing quote, and then the quote. -/
theorem extend_literal (past : Past) (kind : TokenKind) (contents : Text) :
    past.extend kind (Text.literal contents)
      = ⟨kind, '"'⟩ :: extend (⟨kind, '"'⟩ :: past) kind contents :=
  extend_append past kind ('"' :: contents) ['"']

/-- Two pasts that differ in nothing but the contents of a string literal, which stands behind
`front` in both and is of one kind. -/
def SameBut (front contents contents' : Text) (past past' : Past) : Prop :=
  ∃ (kind : TokenKind) (before behind : Past), kind.isDelimiter = false ∧ before.text = front ∧
    past = behind ++ before.extend kind (Text.literal contents) ∧
    past' = behind ++ before.extend kind (Text.literal contents')

namespace SameBut

variable {front contents contents' : Text} {past past' : Past}

theorem refl_extend {before : Past} {kind : TokenKind} (plain : kind.isDelimiter = false) :
    SameBut before.text contents contents' (before.extend kind (Text.literal contents))
      (before.extend kind (Text.literal contents')) :=
  ⟨kind, before, [], plain, rfl, rfl, rfl⟩

theorem extend (h : SameBut front contents contents' past past') (kind : TokenKind) (chars : Text) :
    SameBut front contents contents' (past.extend kind chars) (past'.extend kind chars) := by
  obtain ⟨first, before, behind, plain, text, rfl, rfl⟩ := h
  refine ⟨first, before, (chars.map fun c => ⟨kind, c⟩).reverse ++ behind, plain, text, ?_, ?_⟩
  · rw [extend_eq, List.append_assoc]
  · rw [extend_eq, List.append_assoc]

/-- The literal keeps to one kind when its line is marked anew. -/
theorem remarkLine (h : SameBut front contents contents' past past')
    (isContents : Text.IsContents contents) (isContents' : Text.IsContents contents')
    {kind : TokenKind} (plain : kind.isDelimiter = false) :
    SameBut front contents contents' (past.remarkLine kind) (past'.remarkLine kind) := by
  obtain ⟨first, before, behind, plain', text, rfl, rfl⟩ := h
  -- the line that is made anew starts behind the literal, or the literal stands on it
  by_cases lf : ∃ mark ∈ behind, mark.char = '\n'
  · exact ⟨first, before, behind.remarkLine kind, plain', text, remarkLine_append_of_lf lf kind _,
      remarkLine_append_of_lf lf kind _⟩
  · have oneLine : ∀ mark ∈ behind, mark.char ≠ '\n' := fun mark m e => lf ⟨mark, m, e⟩
    refine ⟨kind, before.remarkLine kind, behind.map fun mark => ⟨kind, mark.char⟩, plain,
      ?_, ?_, ?_⟩
    · rw [text_remarkLine, text]
    · rw [remarkLine_append_of_oneLine oneLine, remarkLine_extend isContents.oneLine_literal]
    · rw [remarkLine_append_of_oneLine oneLine, remarkLine_extend isContents'.oneLine_literal]

/-- **The contents of a literal are never asked for** once they are behind. -/
theorem alike (h : SameBut front contents contents' past past') :
    Alike past past' ∧ past'.lastInk? = past.lastInk? := by
  obtain ⟨kind, before, behind, plain, text, rfl, rfl⟩ := h
  rw [extend_literal, extend_literal]
  have base : ∀ p q : Past, Alike (⟨kind, '"'⟩ :: p) (⟨kind, '"'⟩ :: q) := by
    intro p q
    refine ⟨rfl, rfl, rfl, ?_⟩
    rw [blankSoFar_cons, blankSoFar_cons]
    rfl
  refine ⟨(base _ _).append behind, lastInk?_append (.inl ?_)⟩
  rw [lastInk?_cons, lastInk?_cons]
  rfl

theorem head?_kind (h : SameBut front contents contents' past past') :
    (past'.head?.map (·.kind)) = past.head?.map (·.kind) := by
  obtain ⟨kind, before, behind, plain, text, rfl, rfl⟩ := h
  rw [extend_literal, extend_literal]
  cases behind <;> rfl

end SameBut

end Past

/-! ## Tokens -/

namespace Token

/-- A stretch of one kind joins what follows it or does not, whatever it says. -/
theorem runs_stretch {kind : TokenKind} (plain : kind.isDelimiter = false) (ns : List Mark) :
    ∃ after back, ns.map (·.char) = after ++ back.flatMap (·.2) ∧
      ∀ t ≠ [], runs (t.map (Mark.mk kind) ++ ns) = (kind, t ++ after) :: back := by
  -- only the last character of the stretch meets what follows
  obtain ⟨after, back, text, last⟩ : ∃ after back, ns.map (·.char) = after ++ back.flatMap (·.2) ∧
      ∀ c, runs (⟨kind, c⟩ :: ns) = (kind, c :: after) :: back := by
    have whole := flatMap_runs ns
    cases hr : runs ns with
    | nil =>
      rw [hr] at whole
      exact ⟨[], [], whole.symm, fun c => by rw [runs, hr]⟩
    | cons r more =>
      rw [hr] at whole
      by_cases joins : kind = r.1 ∧ r.1.isDelimiter = false
      · refine ⟨r.2, more, whole.symm, fun c => ?_⟩
        rw [runs, hr]
        refine (if_pos joins).trans ?_
        rw [joins.1]
      · refine ⟨[], r :: more, whole.symm, fun c => ?_⟩
        rw [runs, hr]
        exact if_neg joins
  refine ⟨after, back, text, fun t nonempty => ?_⟩
  induction t with
  | nil => exact absurd rfl nonempty
  | cons c t ih =>
    cases t with
    | nil => exact last c
    | cons d t =>
      rw [List.map_cons, List.cons_append, runs, ih (List.cons_ne_nil d t)]
      exact if_pos ⟨rfl, plain⟩

/-- **A stretch of one kind belongs to one run,** and no other run depends on what it says. -/
theorem runs_around {kind : TokenKind} (plain : kind.isDelimiter = false) (ms ns : List Mark) :
    ∃ front before after back, ms.map (·.char) = front.flatMap (·.2) ++ before ∧
      ns.map (·.char) = after ++ back.flatMap (·.2) ∧
      ∀ t ≠ [], runs (ms ++ (t.map (Mark.mk kind) ++ ns))
        = front ++ (kind, before ++ (t ++ after)) :: back := by
  induction ms with
  | nil =>
    obtain ⟨after, back, text, same⟩ := runs_stretch plain ns
    exact ⟨[], [], after, back, rfl, text, same⟩
  | cons m ms ih =>
    obtain ⟨front, before, after, back, text, text', same⟩ := ih
    rcases front with _ | ⟨r, front⟩
    · -- the mark stands before the run with the stretch
      by_cases joins : m.kind = kind ∧ kind.isDelimiter = false
      · refine ⟨[], m.char :: before, after, back, congrArg (m.char :: ·) text, text',
          fun t ht => ?_⟩
        rw [List.cons_append, runs, same t ht]
        exact if_pos joins
      · refine ⟨[(m.kind, [m.char])], before, after, back, congrArg (m.char :: ·) text, text',
          fun t ht => ?_⟩
        rw [List.cons_append, runs, same t ht]
        exact if_neg joins
    · by_cases joins : m.kind = r.1 ∧ r.1.isDelimiter = false
      · refine ⟨(r.1, m.char :: r.2) :: front, before, after, back, congrArg (m.char :: ·) text,
          text', fun t ht => ?_⟩
        rw [List.cons_append, runs, same t ht]
        exact if_pos joins
      · refine ⟨(m.kind, [m.char]) :: r :: front, before, after, back, congrArg (m.char :: ·) text,
          text', fun t ht => ?_⟩
        rw [List.cons_append, runs, same t ht]
        exact if_neg joins

/-- Two lists of tokens that are the same but for the contents of a string literal, which stands
behind `p` and before `s` in both: the kinds are the same, and so are the texts, except that one
token holds the literal. -/
def SameBut (p contents contents' s : Text) (tokens tokens' : List Token) : Prop :=
  ∃ (front : List (TokenKind × Text)) (kind : TokenKind) (before after : Text)
    (back : List (TokenKind × Text)),
    p = front.flatMap (·.2) ++ before ∧ s = after ++ back.flatMap (·.2) ∧
    tokens.map (fun token => (token.kind, token.text))
      = front ++ (kind, before.withLiteral contents after) :: back ∧
    tokens'.map (fun token => (token.kind, token.text))
      = front ++ (kind, before.withLiteral contents' after) :: back

end Token

/-- **Marks that are the same but for a literal** make tokens that are. -/
theorem Past.SameBut.ofMarks {p contents contents' s : Text} {past past' : Past}
    (h : SameBut p contents contents' past past') (text : past.text = p.withLiteral contents s) :
    Token.SameBut p contents contents' s (Token.ofMarks past.reverse)
      (Token.ofMarks past'.reverse) := by
  obtain ⟨kind, before, behind, plain, rfl, rfl, rfl⟩ := h
  -- what is behind the literal spells what follows it
  have rest : Past.text behind = s := by
    rw [text_append, text_extend, Text.withLiteral_eq, List.append_assoc] at text
    exact List.append_cancel_left (List.append_cancel_left text)
  obtain ⟨front, start, after, back, ahead, follows, same⟩ :=
    Token.runs_around plain before.reverse behind.reverse
  have marks : ∀ c, (behind ++ before.extend kind (Text.literal c)).reverse
      = before.reverse ++ ((Text.literal c).map (Mark.mk kind) ++ behind.reverse) := by
    intro c
    rw [List.reverse_append, reverse_extend, List.append_assoc]
  rw [List.map_reverse] at ahead follows
  refine ⟨front, kind, start, after, back, ahead, rest.symm.trans follows, ?_, ?_⟩
  · rw [Token.map_ofMarks, marks, same (Text.literal contents) (List.cons_ne_nil _ _),
      Text.withLiteral_eq]
  · rw [Token.map_ofMarks, marks, same (Text.literal contents') (List.cons_ne_nil _ _),
      Text.withLiteral_eq]

end DoRunner
