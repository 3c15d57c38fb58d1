import DoRunner.Proofs.Chunk.Framing
import DoRunner.Proofs.Source.Pieces
import DoRunner.Proofs.Source.Words

/-!
# Delimiter directives in a body

The comment pass reads a directive line as a comment where it stands at the start of a line and ends
the mode in force. Such a line is no part of a body. What is left are the directives that the pass
does not look for (`Survives`): those that ask for the mode in force, those that share their lines
with other statements under an explicit terminator, and those that appear only when comments are
taken out or lines are taken out of a string. All of them reach the body (`body_directives`), and
nothing else that is a directive does (`survives_of_mem_body`).
-/

namespace DoRunner

/-! ## Lines that are directives -/

namespace Line

theorem directive?_trim (line : Text) : directive? (Text.trim line) = directive? line := by
  obtain ⟨cut, split, blanks, -⟩ := Text.trimEndWhile_split isBlank (Text.trimStart line)
  have start : directive? (Text.trimStart line) = directive? line := by
    have twice : Text.trimStart (Text.trimStart line) = Text.trimStart line :=
      Text.trimStart_of_head fun c h => Text.head?_trimStart h
    unfold directive? afterDelimit?
    rw [twice]
  rw [← start, split]
  exact (directive?_append (List.all_eq_true.mpr blanks) _).symm

/-- A directive that enters the explicit mode has its semicolon. -/
theorem semicolon_mem_of_directive? {line : Text} (h : directive? line = some .explicit) :
    ';' ∈ line := by
  obtain ⟨word, more, begins, asks, -⟩ := request_of_directive? h
  obtain ⟨front, split, -⟩ := skipLetters_split "elimit".toList word
  have inRest : ';' ∈ Text.trimStart (skipLetters "elimit".toList word) := by
    rw [asks]
    exact List.mem_cons_self
  have inWord : ';' ∈ word := by
    rw [split]
    exact List.mem_append_right _ ((List.dropWhile_sublist _).subset inRest)
  refine (List.dropWhile_sublist isBlank).subset (?_ : ';' ∈ Text.trimStart line)
  rw [begins]
  exact List.mem_append_right _ inWord

end Line

/-- No injected line is a directive. -/
theorem AssemblySettings.eq_of_mem_linesOf {settings : AssemblySettings} {statement line : Text}
    (m : line ∈ settings.linesOf statement) {directive : Line.Directive}
    (found : Line.directive? line = some directive) : line = statement := by
  -- the injected lines begin with letters that no directive has
  have exported : Line.directive? (settings.graph.exportLine settings.cache) = none :=
    Line.directive?_of_mem (c := 'n') List.mem_cons_self (by decide) (by decide)
  have counted : Line.directive? GraphExport.incrementLine = none := by decide
  unfold linesOf at m
  split at m
  · rcases List.mem_cons.mp m with own | m
    · exact own
    · rcases List.mem_cons.mp m with rfl | m
      · exact absurd (exported.symm.trans found) (by simp)
      · rw [List.mem_singleton.mp m] at found
        exact absurd (counted.symm.trans found) (by simp)
  · exact List.mem_singleton.mp m

/-! ## The directives that survive -/

/-- How a piece of the marks spells a directive that the comment pass does not take out. -/
inductive Survives (before piece after : List Mark) : Line.Directive → Prop where
  /-- Lines end statements here, and the directive asks for that once more. -/
  | redundant (lines : ∀ mark ∈ piece, mark.kind = .plainText) : Survives before piece after .newline
  /-- A terminator ends statements here, and none of the lines that start within the statement is the
  directive alone. -/
  | shared (explicit : ∀ mark ∈ piece, mark.kind = .namespaceBody)
      (notAlone : ∀ x y, piece = x ++ y → y ≠ [] → Past.atLineStart (before ++ x).reverse = true →
        Line.directive? (Text.firstLine ((y ++ after).map (·.char))) ≠ some .newline) :
      Survives before piece after .newline
  /-- Part of the statement is a comment or a string. -/
  | hidden {directive : Line.Directive} {mark : Mark} (m : mark ∈ piece)
      (part : mark.kind.isComment = true ∨ mark.kind = .stringLiteral) :
      Survives before piece after directive

open CommentScan (statementChars)

namespace Comments

section Bare

variable {s : State} {before piece after : List Mark} (reads : ReadBare s piece after)
  {directive : Line.Directive}
  (found : Line.directive? (piece.flatMap statementChars) = some directive)

include reads found

/-- While lines end statements, a bare piece is a line, and the pass has looked at it. -/
theorem survives_of_newline (newline : s.delimiter = .newline) (start : s.past.atLineStart = true)
    (nonempty : piece ≠ []) (solid : ∀ mark ∈ piece, mark.breaks = false) :
    Survives before piece after directive := by
  have kinds : ∀ mark ∈ piece, mark.kind = .plainText := by
    have kinds := reads.kinds
    rwa [newline] at kinds
  have other := reads.noDirective [] piece rfl nonempty start
  rw [reads.firstLine newline solid, ← reads.spelled newline, found, newline] at other
  cases directive with
  | explicit => exact absurd rfl other
  | newline => exact .redundant kinds

/-- Under an explicit terminator, a bare piece holds none, and the pass has looked at the lines that
start in it. -/
theorem survives_of_semicolon (semicolon : s.delimiter = .semicolon)
    (behind : s.past = before.reverse) : Survives before piece after directive := by
  have kinds : ∀ mark ∈ piece, mark.kind = .namespaceBody := by
    have kinds := reads.kinds
    rwa [semicolon] at kinds
  cases directive with
  | newline =>
    refine .shared kinds fun x y split rest start => ?_
    rw [List.reverse_append, ← behind] at start
    have other := reads.noDirective x y split rest start
    rwa [semicolon] at other
  | explicit =>
    exfalso
    obtain ⟨mark, m, here⟩ := List.mem_flatMap.mp (Line.semicolon_mem_of_directive? found)
    have spelled : statementChars mark = [if mark.char = '\n' then ' ' else mark.char] := by
      rw [statementChars, kinds mark m]
      rfl
    rw [spelled, List.mem_singleton] at here
    have char : mark.char = ';' := by
      split at here
      · exact absurd here (by decide)
      · exact here.symm
    exact reads.noTerminator mark m (by rw [semicolon, char]; rfl)

end Bare

/-- **What a piece spells is no directive** that the pass looks for where it stands. -/
theorem survives_of_piece {initial : DelimiterMode} (known : initial = .newline ∨ initial = .semicolon)
    {text : Text} {before piece after : List Mark}
    (isPiece : Piece (scanComments text initial).marks before piece after) {directive : Line.Directive}
    (found : Line.directive? (piece.flatMap statementChars) = some directive) :
    Survives before piece after directive := by
  by_cases hides : ∃ mark ∈ piece, mark.kind.isComment = true ∨ mark.kind = .stringLiteral
  · obtain ⟨mark, m, part⟩ := hides
    exact .hidden m part
  · have bare : ∀ mark ∈ piece, mark.Bare := by
      intro mark m
      have plain : mark.kind.isComment = false :=
        Bool.eq_false_iff.mpr fun comment => hides ⟨mark, m, .inl comment⟩
      refine ⟨plain, fun literal => hides ⟨mark, m, .inr literal⟩, fun quote => ?_⟩
      -- a quote would stand in the directive
      have kept : '"' ∈ piece.flatMap statementChars := by
        refine List.mem_flatMap.mpr ⟨mark, m, ?_⟩
        have solid := isPiece.solid mark m
        obtain ⟨kind, c⟩ := mark
        obtain rfl : c = '"' := quote
        cases kind <;> first | exact Bool.noConfusion plain | exact List.mem_cons_self | exact Bool.noConfusion solid
      rw [Line.directive?_of_mem kept (by decide) (by decide)] at found
      exact absurd found (by simp)
    have nonempty : piece ≠ [] := by
      rintro rfl
      have none : Line.directive? ([].flatMap statementChars) = none := rfl
      exact absurd (none.symm.trans found) (by simp)
    obtain ⟨s, left, reached, behind, past, root, start⟩ :=
      exists_start_of_bare isPiece nonempty bare
    have reads := run_piece root past isPiece.ends isPiece.solid bare
    rcases reached.delimiter_cases known with newline | semicolon
    · exact survives_of_newline reads found newline (start newline) nonempty isPiece.solid
    · exact survives_of_semicolon reads found semicolon behind

end Comments

namespace Analysis

/-- **Of all directives, only those reach the body that the comment pass does not look for:** where
they ask for the mode in force, share their lines with other statements, or are put together from
what a comment or a string leaves. -/
theorem survives_of_mem_body {code : Text} {mode : DelimiterMode}
    (known : mode = .newline ∨ mode = .semicolon) (settings : AssemblySettings)
    (context : SessionContext) {line : Text}
    (m : line ∈ (assemble (ofCode code mode) settings context).1.body) {directive : Line.Directive}
    (found : Line.directive? line = some directive) :
    ∃ before piece after, Piece (ofCode code mode).comments.marks before piece after ∧
      line = Text.trim (piece.flatMap statementChars) ∧ Survives before piece after directive := by
  rw [body_assemble] at m
  obtain ⟨statement, isStatement, own⟩ := List.mem_flatMap.mp m
  obtain rfl := AssemblySettings.eq_of_mem_linesOf own found
  obtain ⟨inLines, -⟩ := List.mem_filter.mp isStatement
  obtain ⟨whole, isLine, rfl⟩ := List.mem_map.mp inLines
  obtain ⟨before, piece, after, isPiece, rfl⟩ := exists_piece isLine
  rw [Line.directive?_trim] at found
  exact ⟨before, piece, after, isPiece, rfl, Comments.survives_of_piece known isPiece found⟩

/-- A directive that asks for what is in force already. -/
theorem survives_of_mem_body_redundant : ∃ before piece after,
    Piece (ofCode "#delimit cr".toList .newline).comments.marks before piece after ∧
      "#delimit cr".toList = Text.trim (piece.flatMap statementChars) ∧
      Survives before piece after .newline :=
  survives_of_mem_body (.inl rfl) (.default ⟨"c".toList⟩) .initial (by decide +kernel) (by decide)

/-- **Directives in bodies:** a redundant one, one behind a comment, one on a line within a string, and
one that stands before its terminator. -/
theorem body_directives :
    let body (code : String) (mode : DelimiterMode) :=
      (assemble (ofCode code.toList mode) (.default ⟨"c".toList⟩) .initial).1.body
    Line.directive? "#delimit cr".toList = some .newline ∧
      Line.directive? "#delimit ;".toList = some .explicit ∧
      body "#delimit cr" .newline = ["#delimit cr".toList] ∧
      body "/* c */ #delimit ;" .newline = ["#delimit ;".toList] ∧
      "#delimit ;".toList ∈ body "di \x60\"a\n#delimit ;\nb\"'" .newline ∧
      body "#delimit cr;" .semicolon = ["#delimit cr".toList] := by
  decide +kernel

end Analysis

end DoRunner
