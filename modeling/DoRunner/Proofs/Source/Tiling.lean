import Mathlib.Data.List.Chain
import DoRunner.Proofs.Text.Lines
import DoRunner.Source.Token
import DoRunner.Text.Utf8

/-!
# Tokens tile their text

Tokens are formed from marks, one for each character, so nothing can be lost between two of them:
their spans follow one another from the first byte of the text to the last, and each token is what
stands in its span (`Token.covers_ofMarks`). Two neighbours differ in kind, except for terminators,
of which each stands alone.

Offsets have 32 bits and saturate, so all this holds of texts that are short enough for them.
-/

namespace DoRunner

/-- A scanning loop that is given a number of steps: the state in which it ends, or nothing where it
has not read all of the text by then. -/
def stepsWithin {σ : Type} (step : σ → Char → Text → σ × Text) : Nat → σ → Text → Option σ
  | _, s, [] => some s
  | 0, _, _ :: _ => none
  | n + 1, s, c :: rest => stepsWithin step n (step s c rest).1 (step s c rest).2

/-- A pass whose steps all leave less text than they found ends within as many steps as there are
characters. -/
theorem stepsWithin_of_shorter {σ : Type} {step : σ → Char → Text → σ × Text} {run : σ → Text → σ}
    (stops : ∀ s, run s [] = s)
    (goesOn : ∀ s c rest, run s (c :: rest) = run (step s c rest).1 (step s c rest).2)
    (shorter : ∀ s c rest, (step s c rest).2.length < (c :: rest).length)
    {n : Nat} {text : Text} (enough : text.length ≤ n) (s : σ) :
    stepsWithin step n s text = some (run s text) := by
  induction n generalizing s text with
  | zero =>
    obtain rfl := List.length_eq_zero_iff.mp (Nat.le_zero.mp enough)
    rw [stops]
    rfl
  | succ n ih =>
    cases text with
    | nil =>
      rw [stops]
      rfl
    | cons c rest =>
      have less := shorter s c rest
      rw [List.length_cons] at enough less
      rw [goesOn]
      exact ih (by omega) _

namespace Utf8

theorem length_encode (t : Text) : (encode t).length = Text.byteLength t := by
  induction t with
  | nil => rfl
  | cons c t ih =>
    rw [encode, List.flatMap_cons, List.length_append, String.length_utf8EncodeChar, ← encode, ih,
      Text.byteLength]

theorem encode_append (s t : Text) : encode (s ++ t) = encode s ++ encode t := List.flatMap_append

/-- The bytes between two places of a text are those of what stands between them. -/
theorem bytesBetween (front t back : Text) :
    ((encode (front ++ t ++ back)).drop (Text.byteLength front)).take (Text.byteLength t)
      = encode t := by
  rw [encode_append, encode_append, List.append_assoc, ← length_encode front, List.drop_left,
    ← length_encode t, List.take_left]

end Utf8

namespace Span

/-- The range between the offsets of two byte counts, however long the text is. -/
theorem between_ofNat {a b : Nat} (h : a ≤ b) :
    (between (.ofNat a) (.ofNat b)).start = .ofNat a ∧
      (between (.ofNat a) (.ofNat b)).stop = .ofNat b := by
  have ordered : (ByteOffset.ofNat a).val ≤ (ByteOffset.ofNat b).val := by
    show min a ByteOffset.limit ≤ min b ByteOffset.limit
    omega
  rw [between, dif_pos ordered]
  exact ⟨rfl, rfl⟩

end Span

namespace Token

/-! ## Runs -/

/-- The marks that runs stand for. -/
def marksOf (rs : List (TokenKind × Text)) : List Mark := rs.flatMap fun r => r.2.map (Mark.mk r.1)

theorem marksOf_runs (marks : List Mark) : marksOf (runs marks) = marks := by
  induction marks with
  | nil => rfl
  | cons mark marks ih =>
    rw [runs]
    cases hr : runs marks with
    | nil =>
      rw [hr] at ih
      obtain rfl : [] = marks := ih
      rfl
    | cons r more =>
      obtain ⟨kind, text⟩ := r
      rw [hr] at ih
      dsimp only
      split
      · -- the mark joins the first run
        rename_i joins
        rw [← ih, marksOf, List.flatMap_cons, List.map_cons, List.cons_append, ← joins.1]
        rfl
      · rw [marksOf, List.flatMap_cons, ← marksOf, ih]
        rfl

/-- **A run of a longer row** is its first mark alone, or its first mark with a run that it joins, or
one of the other runs. -/
theorem mem_runs_cons {mark : Mark} {marks : List Mark} {r : TokenKind × Text}
    (h : r ∈ runs (mark :: marks)) :
    r = (mark.kind, [mark.char]) ∨
      (∃ text, r = (mark.kind, mark.char :: text) ∧ mark.kind.isDelimiter = false) ∨
      r ∈ runs marks := by
  rw [runs] at h
  split at h
  · exact .inl (List.mem_singleton.mp h)
  · rename_i kind text more hr
    rw [hr]
    split at h
    · rename_i joins
      obtain ⟨rfl, plain⟩ := joins
      rcases List.mem_cons.mp h with rfl | h
      · exact .inr (.inl ⟨text, rfl, plain⟩)
      · exact .inr (.inr (List.mem_cons_of_mem _ h))
    · rcases List.mem_cons.mp h with rfl | h
      · exact .inl rfl
      · exact .inr (.inr h)

theorem ne_nil_of_mem_runs {marks : List Mark} {r : TokenKind × Text} (h : r ∈ runs marks) :
    r.2 ≠ [] := by
  induction marks with
  | nil => exact absurd h List.not_mem_nil
  | cons mark marks ih =>
    rcases mem_runs_cons h with rfl | ⟨text, rfl, -⟩ | h
    · exact List.cons_ne_nil _ _
    · exact List.cons_ne_nil _ _
    · exact ih h

/-- **Each terminator is a run of its own.** -/
theorem length_of_isDelimiter {marks : List Mark} {r : TokenKind × Text} (h : r ∈ runs marks)
    (delimiter : r.1.isDelimiter = true) : r.2.length = 1 := by
  induction marks with
  | nil => exact absurd h List.not_mem_nil
  | cons mark marks ih =>
    rcases mem_runs_cons h with rfl | ⟨text, rfl, plain⟩ | h
    · rfl
    · exact absurd (plain.symm.trans delimiter) Bool.false_ne_true
    · exact ih h

/-- **Neighbouring runs differ in kind,** unless they are terminators. -/
theorem isChain_runs (marks : List Mark) :
    (runs marks).IsChain fun a b => a.1 = b.1 → a.1.isDelimiter = true := by
  induction marks with
  | nil => exact .nil
  | cons mark marks ih =>
    rw [runs]
    cases hr : runs marks with
    | nil => exact .singleton _
    | cons r more =>
      obtain ⟨kind, text⟩ := r
      rw [hr] at ih
      dsimp only
      split
      · rw [List.isChain_cons] at ih ⊢
        exact ih
      · rename_i apart
        refine .cons_cons ?_ ih
        intro same
        dsimp only at same ⊢
        by_contra joined
        exact apart ⟨same, by rw [← same]; exact Bool.eq_false_iff.mpr joined⟩

/-! ## Spans -/

/-- The spans of tokens follow one another from one place to another. -/
def Tiles : Nat → List Token → Nat → Prop
  | start, [], stop => start = stop
  | start, token :: more, stop => token.span.start.val = start ∧ Tiles token.span.stop.val more stop

/-- The token is what stands in its span. -/
def IsSlice (text : Text) (token : Token) : Prop :=
  ((Utf8.encode text).drop token.span.start.val).take token.span.length = Utf8.encode token.text

/-- Tokens account for a text. -/
structure Covers (text : Text) (tokens : List Token) : Prop where
  nonempty : ∀ token ∈ tokens, token.text ≠ []
  tiles : Tiles 0 tokens (Text.byteLength text)
  slices : ∀ token ∈ tokens, IsSlice text token
  /-- One after another they spell the text. -/
  whole : textOf tokens = text

theorem between_ofNat {a b : Nat} (h : a ≤ b) (short : b ≤ ByteOffset.limit) :
    (Span.between (.ofNat a) (.ofNat b)).start.val = a ∧
      (Span.between (.ofNat a) (.ofNat b)).stop.val = b := by
  obtain ⟨start, stop⟩ := Span.between_ofNat h
  rw [start, stop]
  exact ⟨ByteOffset.val_ofNat_of_le (h.trans short), ByteOffset.val_ofNat_of_le short⟩

theorem tiles_placed {start : Nat} {rs : List (TokenKind × Text)}
    (short : start + Text.byteLength (rs.flatMap (·.2)) ≤ ByteOffset.limit) :
    Tiles start (placed start rs) (start + Text.byteLength (rs.flatMap (·.2))) := by
  induction rs generalizing start with
  | nil => exact rfl
  | cons r rs ih =>
    rw [List.flatMap_cons, Text.byteLength_append] at short ⊢
    rw [← Nat.add_assoc]
    obtain ⟨begins, ends⟩ := @between_ofNat start (start + Text.byteLength r.2) (by omega) (by omega)
    refine ⟨begins, ?_⟩
    rw [ends]
    exact ih (by omega)

theorem isSlice_placed {front : Text} {rs : List (TokenKind × Text)}
    (short : Text.byteLength front + Text.byteLength (rs.flatMap (·.2)) ≤ ByteOffset.limit) :
    ∀ token ∈ placed (Text.byteLength front) rs, IsSlice (front ++ rs.flatMap (·.2)) token := by
  induction rs generalizing front with
  | nil => exact fun token m => absurd m List.not_mem_nil
  | cons r rs ih =>
    intro token m
    rw [List.flatMap_cons, Text.byteLength_append] at short
    rw [List.flatMap_cons, ← List.append_assoc]
    rcases List.mem_cons.mp m with rfl | m
    · obtain ⟨begins, ends⟩ := @between_ofNat (Text.byteLength front)
        (Text.byteLength front + Text.byteLength r.2) (by omega) (by omega)
      rw [IsSlice, Span.length, begins, ends, Nat.add_sub_cancel_left]
      exact Utf8.bytesBetween front r.2 _
    · -- what has been passed stands before the tokens that are left
      rw [← Text.byteLength_append] at m
      exact ih (by rw [Text.byteLength_append]; omega) token m

theorem map_placed (start : Nat) (rs : List (TokenKind × Text)) :
    (placed start rs).map (fun token => (token.kind, token.text)) = rs := by
  induction rs generalizing start with
  | nil => rfl
  | cons r rs ih => rw [placed, List.map_cons, ih]

/-! ## Tokens of marks -/

theorem map_ofMarks (marks : List Mark) :
    (ofMarks marks).map (fun token => (token.kind, token.text)) = runs marks := map_placed 0 _

theorem mem_runs_of_mem {marks : List Mark} {token : Token} (m : token ∈ ofMarks marks) :
    (token.kind, token.text) ∈ runs marks := by
  rw [← map_ofMarks]
  exact List.mem_map_of_mem m

/-- **The tokens of a marked text account for it.** -/
theorem covers_ofMarks {marks : List Mark}
    (short : Text.byteLength (marks.map (·.char)) < Nat.pow 2 32) :
    Covers (marks.map (·.char)) (ofMarks marks) := by
  have fits : Text.byteLength (marks.map (·.char)) ≤ ByteOffset.limit := Nat.le_of_lt_succ short
  have tiles := @tiles_placed 0 (runs marks)
  have slices := @isSlice_placed [] (runs marks)
  rw [flatMap_runs, Nat.zero_add] at tiles
  rw [flatMap_runs, Text.byteLength, Nat.zero_add] at slices
  exact ⟨fun token m => ne_nil_of_mem_runs (mem_runs_of_mem m), tiles fits, slices fits,
    textOf_ofMarks marks⟩

/-- Neighbouring tokens differ in kind, unless they are terminators. -/
theorem isChain_ofMarks (marks : List Mark) :
    (ofMarks marks).IsChain fun a b => a.kind = b.kind → a.kind.isDelimiter = true := by
  have chain := isChain_runs marks
  rw [← map_ofMarks, List.isChain_map] at chain
  exact chain

/-- The marks that a token is made of. -/
def marks (token : Token) : List Mark := token.text.map (Mark.mk token.kind)

/-- The marks that tokens are made of are those that they were formed from. -/
theorem flatMap_marks (ms : List Mark) : (ofMarks ms).flatMap marks = ms := by
  have all := marksOf_runs ms
  rwa [← map_ofMarks, marksOf, List.flatMap_map] at all

/-- The marks before a token, its own, and those behind it. -/
theorem marks_split {ms : List Mark} {before after : List Token} {token : Token}
    (h : ofMarks ms = before ++ token :: after) :
    ms = before.flatMap marks ++ token.marks ++ after.flatMap marks := by
  rw [← flatMap_marks ms, h, List.flatMap_append, List.flatMap_cons, List.append_assoc]

theorem ne_nil_of_mem_ofMarks {ms : List Mark} {token : Token} (m : token ∈ ofMarks ms) :
    token.text ≠ [] := ne_nil_of_mem_runs (mem_runs_of_mem m)

/-- The last mark of a token is of the token's kind. -/
theorem getLast?_marks {token : Token} (h : token.text ≠ []) :
    ∃ c, token.text.getLast? = some c ∧ token.marks.getLast? = some ⟨token.kind, c⟩ := by
  obtain ⟨front, c, text⟩ := List.eq_nil_or_concat token.text |>.resolve_left h
  rw [List.concat_eq_append] at text
  refine ⟨c, by rw [text, List.getLast?_concat], ?_⟩
  rw [marks, text, List.map_append, List.map_singleton, List.getLast?_concat]

/-- The last token is of the kind of the last mark. -/
theorem getLast?_ofMarks {ms : List Mark} {mark : Mark} (h : ms.getLast? = some mark) :
    ∃ before token, ofMarks ms = before ++ [token] ∧ token.kind = mark.kind := by
  rcases List.eq_nil_or_concat (ofMarks ms) with none | ⟨before, token, tokens⟩
  · -- no tokens, no marks
    rw [← flatMap_marks ms, none] at h
    exact absurd h (by simp)
  · rw [List.concat_eq_append] at tokens
    have member : token ∈ ofMarks ms := by
      rw [tokens]
      exact List.mem_append_right _ List.mem_cons_self
    obtain ⟨c, -, last⟩ := getLast?_marks (ne_nil_of_mem_ofMarks member)
    refine ⟨before, token, tokens, ?_⟩
    rw [← flatMap_marks ms, tokens, List.flatMap_append, List.flatMap_singleton,
      List.getLast?_append, last, Option.some_or] at h
    rw [← Option.some.inj h]

theorem map_char_flatMap_marks (tokens : List Token) :
    (tokens.flatMap marks).map (·.char) = textOf tokens := by
  rw [List.map_flatMap, textOf]
  congr 1
  funext token
  rw [marks, List.map_map]
  exact List.map_id _

end Token

end DoRunner
