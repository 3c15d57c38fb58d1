import DoRunner.Proofs.Chunk.Terminated
import DoRunner.Proofs.Source.Continuation

/-!
# Statements between semicolons

Where semicolons end statements and a text holds neither a double quote nor a slash nor a hash,
nothing but a star at the start of a line can make a comment, and that comment ends with its
statement. So the semicolons cut the text into segments, and what is left of each is the part before
such a star, with its line feeds as blanks (`keptOf`, `run_segments`).
-/

namespace DoRunner

open CommentScan (statementChars)

namespace Comments

/-- A text in which no string, no comment with slashes and no directive can begin. -/
structure Unmarked (t : Text) : Prop where
  /-- It holds no double quote. -/
  noQuote : '"' ∉ t
  /-- It holds no slash. -/
  noSlash : '/' ∉ t
  /-- It holds no hash. -/
  noHash : '#' ∉ t

namespace Unmarked

variable {t : Text}

theorem of_subset (h : Unmarked t) {part : Text} (within : part ⊆ t) : Unmarked part :=
  ⟨fun m => h.noQuote (within m), fun m => h.noSlash (within m), fun m => h.noHash (within m)⟩

theorem tail {c : Char} (h : Unmarked (c :: t)) : Unmarked t :=
  h.of_subset (List.subset_cons_self c t)

theorem directive? (h : Unmarked t) : Line.directive? (Text.firstLine t) = none := by
  cases found : Line.directive? (Text.firstLine t) with
  | none => rfl
  | some directive =>
    -- every directive has its hash
    have hash : '#' ∈ Text.firstLine t := by
      unfold Line.directive? Line.afterDelimit? at found
      cases word : Text.after? "#d".toList (Text.trimStart (Text.firstLine t)) with
      | none => rw [word] at found; exact absurd found (by simp)
      | some rest =>
        have split := Text.after?_eq_some_iff.mp word
        have m : '#' ∈ Text.trimStart (Text.firstLine t) := by
          rw [split]
          exact List.mem_cons_self
        exact (List.dropWhile_sublist _).subset m
    exact absurd ((List.takeWhile_sublist _).subset hash) h.noHash

theorem noSlash_head? (h : Unmarked t) : t.head? ≠ some '/' :=
  fun first => h.noSlash (List.mem_of_head? first)

theorem slashComment? (h : Unmarked t) (s : State) (allowed : Past → Bool) :
    Comments.slashComment? s allowed t = none :=
  slashComment?_of_noSlash h.noSlash_head? s allowed

theorem starCommentMove (h : Unmarked t) (s : State) :
    Comments.starCommentMove s t = ⟨.commentLine, 0, s.modes⟩ :=
  starCommentMove_of_noSlash h.noSlash_head? s

theorem explicitMove (h : Unmarked t) (s : State) (terminator : Char) :
    Comments.explicitMove s terminator t =
      if t.head? = some terminator then ⟨.semicolonDelimiter, 0, s.modes⟩
      else ⟨.namespaceBody, 0, s.modes⟩ := by
  rw [Comments.explicitMove, h.slashComment?, Quote.opens?_of_notMem h.noQuote]

end Unmarked

/-! ## Single steps -/

section Steps

variable {s : State} (explicit : s.delimiter = .semicolon) {c : Char} {rest : Text}
  (unmarked : Unmarked (c :: rest))

include explicit unmarked

theorem rootStep_unmarked : rootStep s (c :: rest) =
    (match if s.past.atLineStart then starOpener? (c :: rest) else none with
      | some more => starMove s more
      | none => if c = ';' then ⟨.semicolonDelimiter, 0, s.modes⟩ else ⟨.namespaceBody, 0, s.modes⟩,
      s.delimiter, s.inMata) := by
  have noDirective : ¬ (none : Option Line.Directive) = some .newline := by simp
  have head : ((c :: rest).head? = some ';') = (c = ';') := by simp
  rw [rootStep, explicit, DelimiterMode.semicolon, unmarked.directive?]
  dsimp only
  rw [if_neg noDirective, unmarked.explicitMove]
  by_cases start : s.past.atLineStart = true
  · rw [if_pos start, if_pos start]
    cases starOpener? (c :: rest) with
    | some more => rfl
    | none => simp only [head]
  · rw [if_neg start, if_neg start]
    simp only [head]

/-- What belongs to a statement is marked so. -/
theorem step_body (root : s.modes = .atRoot) (hc : c ≠ ';')
    (noStar : s.past.atLineStart = true → starOpener? (c :: rest) = none) :
    step s c rest = ({ s with past := ⟨.namespaceBody, c⟩ :: s.past }, rest) := by
  have opener : (if s.past.atLineStart then starOpener? (c :: rest) else none) = none := by
    by_cases start : s.past.atLineStart = true
    · rw [if_pos start, noStar start]
    · rw [if_neg start]
  have acts := rootStep_unmarked explicit unmarked
  rw [opener, ← act_of_atRoot root] at acts
  dsimp only at acts
  rw [if_neg hc] at acts
  exact step_of_act (settle_of_atRoot root c) acts

/-- A star at the start of a line opens a comment. -/
theorem step_star (root : s.modes = .atRoot) (start : s.past.atLineStart = true) {more : Nat}
    (opener : starOpener? (c :: rest) = some more) :
    step s c rest = ({ s with
      modes := ⟨[.starComment]⟩
      past := s.past.extend .commentLine (c :: rest.take more) }, rest.drop more) := by
  have acts := rootStep_unmarked explicit unmarked
  rw [if_pos start, opener, ← act_of_atRoot root] at acts
  have stepped := step_eq_of_act (settle_of_atRoot root c) acts
  rw [stepped, root]
  rfl

/-- What follows belongs to it. -/
theorem step_behindStar (star : s.modes = ⟨[.starComment]⟩) (hc : c ≠ ';') :
    step s c rest = ({ s with past := ⟨.commentLine, c⟩ :: s.past }, rest) := by
  have settled : settle s c = s := by
    unfold settle
    rw [star, explicit]
    exact if_neg hc
  have acts : act s (c :: rest) = (⟨.commentLine, 0, s.modes⟩, s.delimiter, s.inMata) := by
    rw [← unmarked.starCommentMove s, act, star]
    rfl
  exact step_of_act settled acts

end Steps

/-- **A semicolon ends the statement,** and a star comment in it. -/
theorem step_semicolon {s : State} (explicit : s.delimiter = .semicolon)
    (modes : s.modes = .atRoot ∨ s.modes = ⟨[.starComment]⟩) {rest : Text}
    (unmarked : Unmarked (';' :: rest)) :
    step s ';' rest
      = ({ s with modes := .atRoot, past := ⟨.semicolonDelimiter, ';'⟩ :: s.past }, rest) := by
  have settled : settle s ';' = { s with modes := .atRoot } := by
    obtain ⟨stack, delimiter, since, inMata, past⟩ := s
    obtain rfl : delimiter = .semicolon := explicit
    rcases modes with rfl | rfl <;> rfl
  have opener : starOpener? (';' :: rest) = none := rfl
  have acts := @rootStep_unmarked { s with modes := .atRoot } explicit ';' rest unmarked
  rw [opener, ite_self, ← act_of_atRoot rfl] at acts
  exact step_of_act (t := { s with modes := .atRoot }) settled acts

/-! ## Segments -/

/-- What is left of a segment: all before the first star that starts a line, with its line feeds as
blanks. -/
def keptOf (start : Bool) : Text → Text
  | [] => []
  | c :: t =>
    if start && (starOpener? (c :: t)).isSome then []
    else (if c = '\n' then ' ' else c) :: keptOf (c == '\n') t

/-- A comment adds nothing to the statements. -/
theorem statements_comment {kind : TokenKind} (comment : kind.isComment = true) (past : Past)
    (chars : Text) : statements (past.extend kind chars) = statements past := by
  have none : (chars.flatMap fun c => statementChars ⟨kind, c⟩) = [] := by
    refine List.flatMap_eq_nil_iff.mpr fun c _ => ?_
    rw [statementChars, if_pos comment]
  rw [statements_extend, none, List.append_nil]

theorem run_behindStar {s : State} (explicit : s.delimiter = .semicolon)
    (star : s.modes = ⟨[.starComment]⟩) {w : Text} (hw : ';' ∉ w) {rest : Text}
    (unmarked : Unmarked (w ++ rest)) :
    run s (w ++ rest) = run { s with past := s.past.extend .commentLine w } rest := by
  induction w generalizing s with
  | nil => rfl
  | cons c w ih =>
    have hc : c ≠ ';' := fun same => hw (same ▸ List.mem_cons_self)
    rw [List.cons_append] at unmarked ⊢
    rw [run_cons, step_behindStar explicit unmarked star hc]
    exact ih (s := { s with past := ⟨.commentLine, c⟩ :: s.past }) explicit star
      (fun m => hw (List.mem_cons_of_mem c m)) unmarked.tail

/-- The text behind a segment has no part in whether a star opens a comment there. -/
theorem starOpener?_segment {rest : Text} (ends : rest = [] ∨ rest.head? = some ';') (t : Text) :
    starOpener? (t ++ rest) = starOpener? t := by
  rcases ends with rfl | semicolon
  · rw [List.append_nil]
  · obtain ⟨more, rfl⟩ := List.head?_eq_some_iff.mp semicolon
    exact starOpener?_append_cons (by decide) (by decide) t more

/-- **A segment** is read up to the semicolon behind it or the end of the text. What is left of it
goes to the statements, and a star comment is open behind it just if that is not all of it. -/
theorem run_segment {s : State} (explicit : s.delimiter = .semicolon) (root : s.modes = .atRoot)
    {segment : Text} (within : ';' ∉ segment) {rest : Text}
    (ends : rest = [] ∨ rest.head? = some ';') (unmarked : Unmarked (segment ++ rest)) :
    ∃ modes past, run s (segment ++ rest) = run { s with modes, past } rest ∧
      statements past = statements s.past ++ keptOf s.past.atLineStart segment ∧
      (modes = .atRoot ∧ (keptOf s.past.atLineStart segment).length = segment.length ∨
        modes = ⟨[.starComment]⟩ ∧
          (keptOf s.past.atLineStart segment).length < segment.length) := by
  induction segment generalizing s with
  | nil =>
    refine ⟨s.modes, s.past, rfl, (List.append_nil _).symm, .inl ⟨root, rfl⟩⟩
  | cons c segment ih =>
    have hc : c ≠ ';' := fun same => within (same ▸ List.mem_cons_self)
    have opener := starOpener?_segment ends (c :: segment)
    rw [List.cons_append] at unmarked opener
    by_cases star : s.past.atLineStart = true ∧ (starOpener? (c :: segment)).isSome = true
    · -- all of the segment is a star comment
      obtain ⟨start, opens⟩ := star
      obtain ⟨more, found⟩ := Option.isSome_iff_exists.mp opens
      have onLine : more ≤ segment.length :=
        Nat.le_trans (more_starOpener? found) (Text.length_firstLine_le segment)
      have behind : (segment ++ rest).drop more = segment.drop more ++ rest :=
        List.drop_append_of_le_length onLine
      have none : keptOf s.past.atLineStart (c :: segment) = [] := by
        rw [keptOf, start, Bool.true_and, if_pos opens]
      refine ⟨⟨[.starComment]⟩, (s.past.extend .commentLine (c :: (segment ++ rest).take more)).extend
        .commentLine (segment.drop more), ?_, ?_, .inr ⟨rfl, ?_⟩⟩
      · rw [List.cons_append, run_cons, step_star explicit unmarked root start (opener.trans found),
          behind]
        refine run_behindStar (s := { s with
          modes := ⟨[.starComment]⟩
          past := s.past.extend .commentLine (c :: (segment ++ rest).take more) }) explicit rfl
          (fun m => within (List.mem_cons_of_mem c ((List.drop_sublist _ _).subset m))) ?_
        rw [← behind]
        exact unmarked.of_subset fun d m =>
          List.mem_cons_of_mem c ((List.drop_sublist _ _).subset m)
      · rw [statements_comment rfl, statements_comment rfl, none, List.append_nil]
      · rw [none]
        exact Nat.succ_pos _
    · have noStar : s.past.atLineStart = true → starOpener? (c :: (segment ++ rest)) = none := by
        intro start
        rw [opener]
        exact Option.not_isSome_iff_eq_none.mp fun opens => star ⟨start, opens⟩
      have kept : keptOf s.past.atLineStart (c :: segment)
          = (if c = '\n' then ' ' else c) :: keptOf (c == '\n') segment := by
        rw [keptOf, if_neg]
        rwa [Bool.and_eq_true]
      obtain ⟨modes, past, runs, left, open'⟩ :=
        @ih { s with past := ⟨.namespaceBody, c⟩ :: s.past } explicit root
          (fun m => within (List.mem_cons_of_mem c m)) unmarked.tail
      refine ⟨modes, past, ?_, ?_, ?_⟩
      · rw [List.cons_append, run_cons, step_body explicit unmarked root hc noStar, runs]
      · rw [left, kept, statements_cons, List.append_assoc]
        rfl
      · rw [kept, List.length_cons, List.length_cons]
        exact open'.imp (.imp_right (congrArg (· + 1))) (.imp_right Nat.succ_lt_succ)

/-- What is left of the segments of a text. Only the first may start with a line. -/
def keptSegments (start : Bool) : List Text → List Text
  | [] => []
  | segment :: segments => keptOf start segment :: keptSegments false segments

theorem keptSegments_append (start : Bool) (front : List Text) (segment : Text)
    (back : List Text) :
    keptSegments start (front ++ segment :: back) = keptSegments start front ++
      keptOf (start && front.isEmpty) segment :: keptSegments false back := by
  induction front generalizing start with
  | nil => rw [List.nil_append, keptSegments, List.isEmpty_nil, Bool.and_true]; rfl
  | cons first front ih =>
    rw [List.cons_append, keptSegments, ih, Bool.false_and, keptSegments, List.isEmpty_cons,
      Bool.and_false]
    rfl

/-- Whether all is left of the last segment. -/
def Entire (start : Bool) (segments : List Text) : Prop :=
  (keptSegments start segments).getLast?.map List.length = segments.getLast?.map List.length

theorem entire_append (start : Bool) (front : List Text) (segment : Text) :
    Entire start (front ++ [segment])
      ↔ (keptOf (start && front.isEmpty) segment).length = segment.length := by
  rw [Entire, keptSegments_append, keptSegments]
  simp

/-- **The statements of a text** are what is left of its segments, and after it a star comment is
open just if not all is left of the last. -/
theorem run_segments {s : State} (explicit : s.delimiter = .semicolon) (root : s.modes = .atRoot)
    {t : Text} (unmarked : Unmarked t) :
    statements (run s t).past = statements s.past
        ++ Text.unlines (keptSegments s.past.atLineStart (Text.splitAt ';' t)) ∧
      ((run s t).modes = .atRoot ↔ Entire s.past.atLineStart (Text.splitAt ';' t)) := by
  obtain ⟨n, length⟩ : ∃ n, t.length = n := ⟨_, rfl⟩
  induction n using Nat.strong_induction_on generalizing s t with
  | _ n ih =>
  by_cases semicolon : ';' ∈ t
  · obtain ⟨segment, more, rfl, within⟩ := List.eq_append_cons_of_mem semicolon
    obtain ⟨modes, past, runs, left, open'⟩ :=
      run_segment explicit root within (.inr rfl) unmarked
    have unmarked' : Unmarked (';' :: more) :=
      unmarked.of_subset (List.subset_append_right segment _)
    have stepped := step_semicolon (s := { s with modes, past }) explicit
      (open'.imp And.left And.left) unmarked'
    have shorter : more.length < n := by
      rw [← length, List.length_append, List.length_cons]
      omega
    obtain ⟨statements', modes'⟩ := ih more.length shorter
      (s := { s with modes := .atRoot, past := ⟨.semicolonDelimiter, ';'⟩ :: past }) explicit rfl
      unmarked'.tail rfl
    have split := Text.splitAt_append_mark ';' segment more
    rw [Text.splitAt_of_notMem within, List.singleton_append] at split
    obtain ⟨next, others, parts⟩ := List.exists_cons_of_ne_nil (Text.splitAt_ne_nil ';' more)
    rw [parts] at statements' modes' split
    rw [runs, run_cons, stepped, split]
    refine ⟨?_, modes'.trans ?_⟩
    · have ended : statements (⟨.semicolonDelimiter, ';'⟩ :: past) = statements past ++ ['\n'] :=
        statements_cons _ _
      show _ = _ ++ Text.unlines (keptOf _ segment :: keptOf false next :: keptSegments false others)
      rw [statements', ended, left, Text.unlines, List.append_assoc, List.append_assoc]
      rfl
    · rw [Entire, Entire, keptSegments, keptSegments, keptSegments, List.getLast?_cons_cons,
        List.getLast?_cons_cons]
      rfl
  · obtain ⟨modes, past, runs, left, open'⟩ :=
      @run_segment s explicit root t semicolon [] (.inl rfl) (by rwa [List.append_nil])
    rw [List.append_nil] at runs
    rw [runs, run, Text.splitAt_of_notMem semicolon]
    refine ⟨left, ?_⟩
    rw [← List.nil_append [t], entire_append, List.isEmpty_nil, Bool.and_true]
    rcases open' with ⟨rfl, same⟩ | ⟨rfl, shorter⟩
    · exact iff_of_true rfl same
    · exact iff_of_false (by simp [ModeStack.atRoot]) (Nat.ne_of_lt shorter)

end Comments

end DoRunner
