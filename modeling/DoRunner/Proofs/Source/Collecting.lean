import DoRunner.Proofs.Source.Lookback
import DoRunner.Proofs.Source.Tiling

/-!
# Collecting tokens on the way

Tokens need not be formed at the end. They may be collected while a text is read: what a step reads
joins the last token if that ends where the step starts and is of the same kind, and begins a new one
otherwise; and what a line has so far is given to a block by taking back the tokens of the line, cut
where the line starts, and collecting them again. This module shows that collected tokens are those of
the marks (`Collects.ofMarks`), as long as each step is collected (`Collects.push`) and each claimed
line is taken back (`Collects.retagLine`).
-/

namespace DoRunner

/-! ## Lines so far -/

/-- What is cut off at the end of a text, and where the cut is. -/
theorem Text.trimEndWhile_split (p : Char → Bool) (t : Text) :
    ∃ cut, t = trimEndWhile p t ++ cut ∧ (∀ c ∈ cut, p c = true) ∧
      ∀ c ∈ (trimEndWhile p t).getLast?, p c = false := by
  refine ⟨(t.reverse.takeWhile p).reverse, ?_, ?_, ?_⟩
  · rw [trimEndWhile, ← List.reverse_append, List.takeWhile_append_dropWhile, List.reverse_reverse]
  · exact fun c m => List.mem_takeWhile_imp (List.mem_reverse.mp m)
  · intro c last
    have stops := List.head?_dropWhile_not p t.reverse
    rw [trimEndWhile, List.getLast?_reverse] at last
    rwa [Option.mem_def.mp last] at stops

theorem Text.byteLength_append_take_le (front t : Text) (n : Nat) :
    byteLength (front ++ t.take n) ≤ byteLength (front ++ t) := by
  conv_rhs => rw [← List.take_append_drop n t, ← List.append_assoc, byteLength_append]
  exact Nat.le_add_right _ _

namespace Past

theorem remarkLine_of_atLineStart {past : Past} (h : past.atLineStart = true) (kind : TokenKind) :
    past.remarkLine kind = past := by
  cases past with
  | nil => rfl
  | cons mark past =>
    have stops : ¬ (mark.char != '\n') = true := by simpa [atLineStart] using h
    simp only [remarkLine, List.takeWhile_cons, List.dropWhile_cons, if_neg stops]
    rfl

/-- What is read within a line is marked anew with it. -/
theorem remarkLine_extend {text : Text} (oneLine : ∀ c ∈ text, c ≠ '\n') (past : Past)
    (first kind : TokenKind) :
    (past.extend first text).remarkLine kind = (past.remarkLine kind).extend kind text := by
  induction text generalizing past with
  | nil => rfl
  | cons c text ih =>
    have goesOn : (c != '\n') = true := by simpa using oneLine c List.mem_cons_self
    have marked : remarkLine kind (⟨first, c⟩ :: past) = ⟨kind, c⟩ :: past.remarkLine kind := by
      simp only [remarkLine, List.takeWhile_cons, List.dropWhile_cons, if_pos goesOn]
      rfl
    refine (ih (fun d m => oneLine d (List.mem_cons_of_mem _ m)) (⟨first, c⟩ :: past)).trans ?_
    rw [marked]
    rfl

theorem atLineStart_extend {past : Past} {kind : TokenKind} {chars : Text} (nonempty : chars ≠ [])
    (oneLine : '\n' ∉ chars) : (past.extend kind chars).atLineStart = false := by
  obtain ⟨front, c, rfl⟩ := List.eq_nil_or_concat chars |>.resolve_left nonempty
  rw [List.concat_eq_append] at oneLine ⊢
  rw [extend_eq, List.map_append, List.reverse_append]
  refine beq_false_of_ne fun same => oneLine ?_
  rw [← show c = '\n' from same]
  exact List.mem_append_right _ List.mem_cons_self

theorem atLineStart_extend_of_lf {text : Text} (h : text.getLast? = some '\n') (past : Past)
    (kind : TokenKind) : (past.extend kind text).atLineStart = true := by
  obtain ⟨front, rfl⟩ := List.getLast?_eq_some_iff.mp h
  rw [extend_eq, List.map_append, List.reverse_append]
  rfl

theorem extend_append (past : Past) (kind : TokenKind) (front back : Text) :
    past.extend kind (front ++ back) = (past.extend kind front).extend kind back :=
  List.foldl_append

theorem reverse_extend (past : Past) (kind : TokenKind) (text : Text) :
    (past.extend kind text).reverse = past.reverse ++ text.map (Mark.mk kind) := by
  rw [extend_eq, List.reverse_append, List.reverse_reverse]

end Past

/-! ## Ranges that follow one another -/

/-- The range of a text that stands behind another. -/
def Span.behind (front text : Text) : Span :=
  .between (.ofNat (Text.byteLength front)) (.ofNat (Text.byteLength front + Text.byteLength text))

namespace Span

variable (front a b : Text)

theorem start_behind : (behind front a).start = .ofNat (Text.byteLength front) :=
  (between_ofNat (Nat.le_add_right _ _)).1

theorem stop_behind : (behind front a).stop = .ofNat (Text.byteLength (front ++ a)) := by
  rw [Text.byteLength_append]
  exact (between_ofNat (Nat.le_add_right _ _)).2

theorem between_byteLength :
    between (.ofNat (Text.byteLength front)) (.ofNat (Text.byteLength (front ++ a)))
      = behind front a := by
  rw [behind, Text.byteLength_append]

/-- Ranges that follow one another merge to the range of both texts. -/
theorem merge_behind : (behind front a).merge (behind (front ++ a) b) = behind front (a ++ b) := by
  have first := (behind front a).start_le
  have second := (behind (front ++ a) b).start_le
  rw [stop_behind, start_behind] at first second
  rw [merge, start_behind, start_behind, stop_behind, stop_behind, if_pos first, if_pos second, behind,
    ← Text.byteLength_append, List.append_assoc]

/-- An offset that is counted from the start of a range. -/
theorem ofNat_start_add :
    ByteOffset.ofNat ((behind front a).start.val + Text.byteLength b)
      = .ofNat (Text.byteLength (front ++ b)) := by
  have saturated : min (min (Text.byteLength front) ByteOffset.limit + Text.byteLength b)
      ByteOffset.limit = min (Text.byteLength front + Text.byteLength b) ByteOffset.limit := by omega
  rw [start_behind, Text.byteLength_append]
  exact (ByteOffset.mk.injEq ..).mpr saturated

end Span

/-! ## The tokens of one more run -/

namespace Token

section Run

variable {kind : TokenKind} {text : Text} (nonempty : text ≠ [])
  (single : kind.isDelimiter = true → text.length = 1)

include nonempty single

theorem runs_map : runs (text.map (Mark.mk kind)) = [(kind, text)] := by
  induction text with
  | nil => exact absurd rfl nonempty
  | cons c text ih =>
    cases text with
    | nil => rfl
    | cons d text =>
      have plain : kind.isDelimiter = false := by
        by_contra delimiter
        exact absurd (single (eq_true_of_ne_false delimiter)) (by simp)
      have rest := ih (by simp) (by simp [plain])
      rw [List.map_cons, runs, rest]
      exact if_pos ⟨rfl, plain⟩

theorem runs_append_map {ms : List Mark}
    (apart : ∀ mark ∈ ms.getLast?, mark.kind = kind → kind.isDelimiter = true) :
    runs (ms ++ text.map (Mark.mk kind)) = runs ms ++ [(kind, text)] := by
  induction ms with
  | nil => exact runs_map nonempty single
  | cons m ms ih =>
    rw [List.cons_append, runs]
    cases ms with
    | nil =>
      rw [List.nil_append, runs_map nonempty single]
      refine if_neg ?_
      rintro ⟨same, plain⟩
      rw [apart m rfl same] at plain
      exact absurd plain (by simp)
    | cons n ms =>
      -- the mark joins the first of the runs that follow, or it does not, with or without the last
      rw [ih fun mark last => apart mark (by rwa [List.getLast?_cons_cons])]
      conv_rhs => rw [runs]
      cases hr : runs (n :: ms) with
      | nil =>
        have none := marksOf_runs (n :: ms)
        rw [hr] at none
        exact absurd none (by simp [marksOf])
      | cons r more =>
        dsimp only [List.cons_append]
        split <;> rfl

end Run

theorem placed_append (start : Nat) (rs more : List (TokenKind × Text)) :
    placed start (rs ++ more) = placed start rs ++
      placed (start + Text.byteLength (rs.flatMap (·.2))) more := by
  induction rs generalizing start with
  | nil => rfl
  | cons r rs ih =>
    rw [List.cons_append, placed, placed, ih, List.flatMap_cons, Text.byteLength_append, Nat.add_assoc]
    rfl

/-- **A run of its own is a token of its own,** behind the others. -/
theorem ofMarks_append_map {ms : List Mark} {kind : TokenKind} {text : Text} (nonempty : text ≠ [])
    (single : kind.isDelimiter = true → text.length = 1)
    (apart : ∀ mark ∈ ms.getLast?, mark.kind = kind → kind.isDelimiter = true) :
    ofMarks (ms ++ text.map (Mark.mk kind))
      = ofMarks ms ++ [⟨kind, text, .behind (ms.map (·.char)) text⟩] := by
  rw [ofMarks, runs_append_map nonempty single apart, placed_append, flatMap_runs, Nat.zero_add]
  rfl

end Token

/-! ## Collecting -/

/-- The tokens collected so far, the latest first. -/
abbrev Collected := List Token

namespace Collected

/-- A token joins the last one, where it goes on with it and is of its kind. -/
def join (token : Token) : Collected → Collected
  | [] => [token]
  | last :: before =>
    if last.kind = token.kind ∧ last.span.stop = token.span.start then
      ⟨last.kind, last.text ++ token.text, last.span.merge token.span⟩ :: before
    else token :: last :: before

/-- Collects what is read between two offsets. -/
def push (tokens : Collected) (kind : TokenKind) (text : Text) (start stop : ByteOffset) :
    Collected :=
  if stop.val ≤ start.val then tokens
  else if kind.isDelimiter then ⟨kind, text, .between start stop⟩ :: tokens
  else join ⟨kind, text, .between start stop⟩ tokens

/-- Takes back what has been collected of the line, down to its start, and collects it again as of
the given kind. -/
def retagLine (kind : TokenKind) : Collected → Collected
  | [] => []
  | token :: before =>
    let kept := Text.trimEndWhile (· != '\n') token.text
    if kept = [] then join { token with kind } (retagLine kind before)
    else if kept = token.text then token :: before
    else
      -- the token reaches into the line from before it
      let boundary := .ofNat (token.span.start.val + Text.byteLength kept)
      join ⟨kind, token.text.drop kept.length, .between boundary token.span.stop⟩
        (⟨token.kind, kept, .between token.span.start boundary⟩ :: before)

end Collected

/-- Tokens that are collected, stretch by stretch, of what a scanner has behind it: no stretch can
join the one before. -/
inductive Collects : Collected → Past → Prop where
  | nothing : Collects [] []
  | stretch {before : Collected} {past : Past} {kind : TokenKind} {text : Text}
      (collects : Collects before past) (nonempty : text ≠ [])
      (single : kind.isDelimiter = true → text.length = 1)
      (apart : ∀ mark ∈ past.head?, mark.kind = kind → kind.isDelimiter = true) :
      Collects (⟨kind, text, .behind past.text text⟩ :: before) (past.extend kind text)

namespace Collects

variable {tokens : Collected} {past : Past}

/-- **What is collected are the tokens of the marks.** -/
theorem ofMarks (h : Collects tokens past) : tokens.reverse = Token.ofMarks past.reverse := by
  induction h with
  | nothing => rfl
  | @stretch before past kind text collects nonempty single apart ih =>
    rw [← List.getLast?_reverse] at apart
    rw [Past.reverse_extend, Token.ofMarks_append_map nonempty single apart, List.reverse_cons, ih,
      List.map_reverse, Past.text]

/-- What joins the tokens, or does not, is collected. -/
theorem join (h : Collects tokens past) {kind : TokenKind} (plain : kind.isDelimiter = false)
    {text : Text} (nonempty : text ≠ []) :
    Collects (Collected.join ⟨kind, text, .behind past.text text⟩ tokens) (past.extend kind text) := by
  have single : kind.isDelimiter = true → text.length = 1 := fun delimiter => by
    rw [plain] at delimiter
    exact absurd delimiter Bool.false_ne_true
  cases h with
  | nothing => exact stretch nothing nonempty single fun _ none => absurd none (by simp)
  | @stretch before past k t collects nonempty' single' apart =>
    rw [Collected.join, Past.text_extend]
    by_cases same : k = kind
    · subst same
      rw [if_pos ⟨rfl, by rw [Span.stop_behind, Span.start_behind]⟩, Span.merge_behind]
      have longer := stretch collects (List.append_ne_nil_of_left_ne_nil nonempty' text)
        (fun delimiter => absurd (plain.symm.trans delimiter) Bool.false_ne_true) apart
      rwa [Past.extend_append] at longer
    · rw [if_neg fun joins => same joins.1, ← Past.text_extend past k]
      refine stretch (stretch collects nonempty' single' apart) nonempty single fun mark last of => ?_
      obtain ⟨c, t, rfl⟩ := List.exists_cons_of_ne_nil nonempty'
      obtain ⟨mark', last', of'⟩ := Past.head?_extend past k c t
      rw [Option.mem_unique last last', of'] at of
      exact absurd of same

/-- **Each step is collected.** -/
theorem push (h : Collects tokens past) {kind : TokenKind} {text : Text} (nonempty : text ≠ [])
    (single : kind.isDelimiter = true → text.length = 1)
    (short : Text.byteLength (past.text ++ text) ≤ ByteOffset.limit) :
    Collects (tokens.push kind text (.ofNat (Text.byteLength past.text))
      (.ofNat (Text.byteLength (past.text ++ text)))) (past.extend kind text) := by
  have more : 0 < Text.byteLength text := by
    obtain ⟨c, text, rfl⟩ := List.exists_cons_of_ne_nil nonempty
    exact Nat.lt_of_lt_of_le c.utf8Size_pos (Nat.le_add_right _ _)
  rw [Text.byteLength_append] at short ⊢
  rw [Collected.push, ByteOffset.val_ofNat_of_le short, ByteOffset.val_ofNat_of_le (by omega),
    if_neg (by omega)]
  cases delimiter : kind.isDelimiter with
  | false => exact h.join delimiter nonempty
  | true => exact stretch h nonempty single fun _ _ _ => delimiter

/-- **What is taken back is collected again,** as of its new kind. -/
theorem retagLine (h : Collects tokens past) {kind : TokenKind} (plain : kind.isDelimiter = false) :
    Collects (tokens.retagLine kind) (past.remarkLine kind) := by
  induction h with
  | nothing => exact nothing
  | @stretch before past first text collects nonempty single apart ih =>
    obtain ⟨moved, split, oneLine, ends⟩ := Text.trimEndWhile_split (· != '\n') text
    rw [Collected.retagLine]
    dsimp only
    generalize Text.trimEndWhile (· != '\n') text = kept at *
    have goesOn : ∀ c ∈ moved, c ≠ '\n' := fun c m => by simpa using oneLine c m
    by_cases none : kept = []
    · -- all of the stretch is on the line, and so is what was read before it
      subst none
      obtain rfl : text = moved := split
      rw [if_pos rfl, Past.remarkLine_extend goesOn, ← Past.text_remarkLine kind past]
      exact ih.join plain nonempty
    · obtain ⟨c, last⟩ := Option.ne_none_iff_exists'.mp (mt List.getLast?_eq_none_iff.mp none)
      have lf : kept.getLast? = some '\n' := by
        rw [last, show c = '\n' by simpa using ends c last]
      rw [if_neg none]
      by_cases all : kept = text
      · -- the line starts behind the stretch
        rw [if_pos all, Past.remarkLine_of_atLineStart
          (Past.atLineStart_extend_of_lf (all ▸ lf) past first)]
        exact stretch collects nonempty single apart
      · rw [if_neg all]
        have cut : text.drop kept.length = moved := by rw [split, List.drop_left]
        have rest : moved ≠ [] := fun nil => all (by rw [split, nil, List.append_nil])
        have before' : Collects (⟨first, kept, .behind past.text kept⟩ :: before)
            (past.extend first kept) := by
          refine stretch collects none (fun delimiter => ?_) apart
          have one := single delimiter
          have := List.length_pos_of_ne_nil none
          have := List.length_pos_of_ne_nil rest
          rw [split, List.length_append] at one
          omega
        have joined := before'.join plain rest
        rw [Past.text_extend] at joined
        rw [cut, Span.ofNat_start_add, Span.start_behind, Span.between_byteLength, Span.stop_behind,
          split, ← List.append_assoc, Span.between_byteLength, Past.extend_append,
          Past.remarkLine_extend goesOn,
          Past.remarkLine_of_atLineStart (Past.atLineStart_extend_of_lf lf past first)]
        exact joined

end Collects

/-! ## Collecting loops -/

/-- A step that is collected as it is made. -/
def collecting {σ : Type} (step : σ → Char → Text → σ × Text)
    (collect : Collected → σ → Char → Text → Collected) (state : σ × Collected) (c : Char)
    (rest : Text) : (σ × Collected) × Text :=
  (((step state.1 c rest).1, collect state.2 state.1 c rest), (step state.1 c rest).2)

section Loop

variable {σ : Type} {step : σ → Char → Text → σ × Text}
  {collect : Collected → σ → Char → Text → Collected} {past : σ → Past}
  (reads : ∀ s c rest,
    (past (step s c rest).1).text ++ (step s c rest).2 = (past s).text ++ c :: rest)
  (collects_step : ∀ {tokens s} c rest, Collects tokens (past s) →
    Text.byteLength ((past s).text ++ c :: rest) ≤ ByteOffset.limit →
    Collects (collect tokens s c rest) (past (step s c rest).1))

include reads collects_step

/-- **A loop whose steps are collected** ends as it would otherwise, with the tokens of all that it has
behind it. -/
theorem stepsWithin_collecting {tokens : Collected} {s final : σ} {text : Text} {n : Nat}
    (collects : Collects tokens (past s))
    (short : Text.byteLength ((past s).text ++ text) ≤ ByteOffset.limit)
    (ends : stepsWithin step n s text = some final) :
    stepsWithin (collecting step collect) n (s, tokens) text
      = some (final, (Token.ofMarks (past final).reverse).reverse) := by
  fun_induction stepsWithin step n s text generalizing tokens with
  | case1 n s =>
    obtain rfl := Option.some.inj ends
    rw [← collects.ofMarks, List.reverse_reverse, stepsWithin]
  | case2 s c rest => exact absurd ends (by simp)
  | case3 n s c rest ih =>
    rw [stepsWithin]
    exact ih (collects_step c rest collects short) ((congrArg _ (reads s c rest)).trans_le short) ends

end Loop

end DoRunner
