import DoRunner.Statement.Pattern

/-!
# Patterns as regular expressions

A pattern is matched by its structure, and it can be written as a regular expression. This module
says what a written regular expression means, and that a pattern means the same both ways.

`RegularExpr.Matches` gives the meaning of characters, rows, alternatives, optional parts and the two
anchors, and `RegularExpr.read?` reads the notation: a backslash takes the meaning from a character
that has one, a group opens a level of nesting, and what stands in a level is a list of alternatives,
each a row of items.

A pattern without alternatives is read item by item, whatever level it stands in
(`readOn_text`). So the written form of some such patterns, in a group between anchors, matches the
texts that one of the patterns matches (`exists_read_anchored`).
-/

namespace DoRunner

/-! ## What a pattern matches -/

namespace Pattern

/-- Whether a text is one of those that the pattern stands for. -/
def Matches : Pattern → Text → Prop
  | empty, t => t = []
  | char c, t => t = [c]
  | seq a b, t => ∃ u v, t = u ++ v ∧ Matches a u ∧ Matches b v
  | alt a b, t => Matches a t ∨ Matches b t
  | optional a, t => Matches a t ∨ t = []

/-- What may be left of a text is what stands behind a beginning that matches. -/
theorem mem_rests_iff {p : Pattern} {t rest : Text} :
    rest ∈ rests p t ↔ ∃ u, t = u ++ rest ∧ Matches p u := by
  induction p generalizing t rest with
  | empty =>
    constructor
    · intro m
      exact ⟨[], (List.mem_singleton.mp m).symm, rfl⟩
    · rintro ⟨u, rfl, rfl⟩
      exact List.mem_singleton_self _
  | char c =>
    constructor
    · intro m
      cases t with
      | nil => exact absurd m List.not_mem_nil
      | cons d t =>
        rw [rests] at m
        split at m
        · rename_i same
          exact ⟨[c], by rw [List.mem_singleton.mp m, same]; rfl, rfl⟩
        · exact absurd m List.not_mem_nil
    · rintro ⟨u, rfl, rfl⟩
      rw [List.singleton_append, rests, if_pos rfl]
      exact List.mem_singleton_self _
  | seq a b iha ihb =>
    rw [rests, List.mem_flatMap]
    constructor
    · rintro ⟨between, m, m'⟩
      obtain ⟨u, rfl, first⟩ := iha.mp m
      obtain ⟨v, rfl, second⟩ := ihb.mp m'
      exact ⟨u ++ v, (List.append_assoc ..).symm, u, v, rfl, first, second⟩
    · rintro ⟨_, rfl, u, v, rfl, first, second⟩
      exact ⟨v ++ rest, iha.mpr ⟨u, List.append_assoc .., first⟩, ihb.mpr ⟨v, rfl, second⟩⟩
  | alt a b iha ihb =>
    rw [rests, List.mem_append, iha, ihb]
    constructor
    · rintro (⟨u, split, first⟩ | ⟨u, split, second⟩)
      · exact ⟨u, split, .inl first⟩
      · exact ⟨u, split, .inr second⟩
    · rintro ⟨u, split, first | second⟩
      · exact .inl ⟨u, split, first⟩
      · exact .inr ⟨u, split, second⟩
  | optional a ih =>
    rw [rests, List.mem_append, ih, List.mem_singleton]
    constructor
    · rintro (⟨u, split, inner⟩ | rfl)
      · exact ⟨u, split, .inl inner⟩
      · exact ⟨[], rfl, .inr rfl⟩
    · rintro ⟨u, rfl, inner | rfl⟩
      · exact .inl ⟨u, rfl, inner⟩
      · exact .inr rfl

theorem matchesAll_iff {p : Pattern} {t : Text} : matchesAll p t = true ↔ Matches p t := by
  rw [matchesAll, List.any_eq_true]
  constructor
  · rintro ⟨rest, m, nothingLeft⟩
    obtain ⟨u, rfl, whole⟩ := mem_rests_iff.mp m
    rw [List.isEmpty_iff.mp nothingLeft, List.append_nil]
    exact whole
  · intro whole
    exact ⟨[], mem_rests_iff.mpr ⟨t, (List.append_nil t).symm, whole⟩, rfl⟩

end Pattern

/-! ## What a regular expression means -/

/-- A regular expression. -/
inductive RegularExpr where
  /-- Nothing. -/
  | nothing
  /-- One character. -/
  | char (c : Char)
  /-- One expression and then another. -/
  | seq (first second : RegularExpr)
  /-- One expression or another. -/
  | alt (first second : RegularExpr)
  /-- An expression or nothing. -/
  | optional (inner : RegularExpr)
  /-- The start of the text. -/
  | atStart
  /-- The end of the text. -/
  | atEnd
deriving DecidableEq, Repr

namespace RegularExpr

/-- Whether the expression matches `here`, with `before` and `after` on either side of it. -/
def Matches : RegularExpr → Text → Text → Text → Prop
  | nothing, _, here, _ => here = []
  | char c, _, here, _ => here = [c]
  | seq a b, before, here, after =>
    ∃ u v, here = u ++ v ∧ Matches a before u (v ++ after) ∧ Matches b (before ++ u) v after
  | alt a b, before, here, after => Matches a before here after ∨ Matches b before here after
  | optional a, before, here, after => Matches a before here after ∨ here = []
  | atStart, before, here, _ => before = [] ∧ here = []
  | atEnd, _, here, after => here = [] ∧ after = []

/-- Whether the expression matches somewhere in the text. -/
def FoundIn (e : RegularExpr) (t : Text) : Prop :=
  ∃ before here after, t = before ++ here ++ after ∧ e.Matches before here after

/-- Items one after another. -/
def inRow (items : List RegularExpr) : RegularExpr := items.foldr .seq .nothing

/-- Two rows, one behind the other, are one row. -/
theorem matches_inRow_append {items more : List RegularExpr} {before here after : Text} :
    (inRow (items ++ more)).Matches before here after ↔
      ∃ u v, here = u ++ v ∧ (inRow items).Matches before u (v ++ after) ∧
        (inRow more).Matches (before ++ u) v after := by
  induction items generalizing before here with
  | nil =>
    constructor
    · intro whole
      exact ⟨[], here, rfl, rfl, by rwa [List.append_nil]⟩
    · rintro ⟨_, v, rfl, rfl, second⟩
      rwa [List.append_nil] at second
  | cons item items ih =>
    constructor
    · rintro ⟨u, w, rfl, first, rest⟩
      obtain ⟨v, z, rfl, second, third⟩ := ih.mp rest
      refine ⟨u ++ v, z, (List.append_assoc ..).symm, ⟨u, v, rfl, ?_, second⟩, ?_⟩
      · rwa [List.append_assoc] at first
      · rwa [List.append_assoc] at third
    · rintro ⟨_, z, rfl, ⟨u, v, rfl, first, second⟩, third⟩
      refine ⟨u, v ++ z, List.append_assoc .., ?_, ih.mpr ⟨v, z, rfl, second, ?_⟩⟩
      · rwa [List.append_assoc]
      · rwa [List.append_assoc]

/-! ## How the notation is read -/

/-- What has been read of one level of nesting. -/
structure Level where
  /-- The alternatives that have ended, latest first. -/
  branches : List RegularExpr
  /-- The items of the alternative that has not, latest first. -/
  row : List RegularExpr

namespace Level

/-- Nothing has been read. -/
def initial : Level := ⟨[], []⟩

/-- One more item. -/
def push (item : RegularExpr) (level : Level) : Level := { level with row := item :: level.row }

/-- Another alternative. -/
def branch (level : Level) : Level := ⟨inRow level.row.reverse :: level.branches, []⟩

/-- The level as one expression. -/
def expr (level : Level) : RegularExpr :=
  level.branches.foldl (fun later branch => .alt branch later) (inRow level.row.reverse)

end Level

/-- Reads one character inside some levels, the innermost apart. Nothing is made of a group that was
not opened, of an optional part that is not there, and of signs that are not spoken of here. -/
def readChar (outer : List Level) (level : Level) (c : Char) : Option (List Level × Level) :=
  if c = ')' then
    match outer with
    | [] => none
    | around :: outer => some (outer, around.push level.expr)
  else if c = '|' then some (outer, level.branch)
  else if c = '?' then
    match level.row with
    | [] => none
    | item :: row => some (outer, { level with row := .optional item :: row })
  else if c = '^' then some (outer, level.push .atStart)
  else if c = '$' then some (outer, level.push .atEnd)
  else if c ∈ Pattern.metaChars then none
  else some (outer, level.push (.char c))

/-- Reads on inside some levels. The innermost is the only one left in the end. -/
def readOn (outer : List Level) (level : Level) : Text → Option RegularExpr
  | [] => if outer.isEmpty then some level.expr else none
  | '\\' :: c :: t => if c ∈ Pattern.metaChars then readOn outer (level.push (.char c)) t else none
  | '(' :: '?' :: ':' :: t => readOn (level :: outer) .initial t
  | c :: t => (readChar outer level c).bind fun (outer, level) => readOn outer level t

/-- The regular expression that a text writes. -/
def read? (t : Text) : Option RegularExpr := readOn [] .initial t

section Reading

variable {outer : List Level} {level : Level}

/-- A character is read as itself, escaped or not, as it is written. -/
theorem readOn_escape (c : Char) (t : Text) :
    readOn outer level (Pattern.escape c ++ t) = readOn outer (level.push (.char c)) t := by
  rw [Pattern.escape]
  split
  · rename_i special
    rw [List.cons_append, List.singleton_append, readOn, if_pos special]
  · rename_i plain
    have differs : ∀ d ∈ Pattern.metaChars, c ≠ d := by
      rintro d m rfl
      exact plain m
    have read : readChar outer level c = some (outer, level.push (.char c)) := by
      unfold readChar
      rw [if_neg (differs ')' (by decide)), if_neg (differs '|' (by decide)),
        if_neg (differs '?' (by decide)), if_neg (differs '^' (by decide)),
        if_neg (differs '$' (by decide)), if_neg plain]
    rw [List.singleton_append, readOn, read]
    · rfl
    · exact fun _ _ same _ => differs '\\' (by decide) same
    · exact fun _ same _ => differs '(' (by decide) same

/-- A group that may be left out. -/
theorem readOn_group (t : Text) :
    readOn outer level ("(?:".toList ++ t) = readOn (level :: outer) .initial t := rfl

theorem readOn_groupEnd (inner : Level) (t : Text) :
    readOn (level :: outer) inner (")?".toList ++ t)
      = readOn outer (level.push (.optional inner.expr)) t := rfl

theorem readOn_bar (t : Text) : readOn outer level ('|' :: t) = readOn outer level.branch t := rfl

end Reading

end RegularExpr

/-! ## Patterns as they are written -/

namespace Pattern

open RegularExpr

/-- The written form of the pattern, in a group between anchors. -/
def anchored (p : Pattern) : Text := "^(?:".toList ++ text p ++ ")$".toList

/-- There are no alternatives in the pattern. -/
def IsRow : Pattern → Prop
  | empty => True
  | char _ => True
  | seq a b => IsRow a ∧ IsRow b
  | alt _ _ => False
  | optional a => IsRow a

/-- The items that a pattern without alternatives is written as. -/
def items : Pattern → List RegularExpr
  | empty => []
  | char c => [.char c]
  | seq a b => items a ++ items b
  | alt _ _ => []
  | optional a => [.optional (inRow (items a))]

/-- **A pattern without alternatives is read item by item**, whatever stands around it. -/
theorem readOn_text {p : Pattern} (isRow : p.IsRow) (outer : List Level)
    (branches row : List RegularExpr) (t : Text) :
    readOn outer ⟨branches, row⟩ (text p ++ t)
      = readOn outer ⟨branches, p.items.reverse ++ row⟩ t := by
  induction p generalizing outer branches row t with
  | empty => rfl
  | char c => exact readOn_escape c t
  | seq a b iha ihb =>
    rw [text, List.append_assoc, iha isRow.1, ihb isRow.2, items, List.reverse_append,
      List.append_assoc]
  | alt a b => exact absurd isRow id
  | optional a ih =>
    -- the group opens a level of its own; closing it makes one item of what was read there
    rw [text, List.append_assoc, List.append_assoc, readOn_group, Level.initial,
      ih isRow, readOn_groupEnd, Level.expr, List.append_nil, List.reverse_reverse]
    rfl

theorem matches_inRow_singleton {e : RegularExpr} {before here after : Text} :
    (inRow [e]).Matches before here after ↔ e.Matches before here after := by
  constructor
  · rintro ⟨u, _, rfl, whole, rfl⟩
    rwa [List.append_nil]
  · intro whole
    exact ⟨here, [], (List.append_nil here).symm, whole, rfl⟩

/-- The items mean what the pattern means. -/
theorem matches_items {p : Pattern} (isRow : p.IsRow) {before here after : Text} :
    (inRow p.items).Matches before here after ↔ p.Matches here := by
  induction p generalizing before here after with
  | empty => exact Iff.rfl
  | char c => exact matches_inRow_singleton
  | seq a b iha ihb =>
    rw [items, matches_inRow_append]
    constructor
    · rintro ⟨u, v, split, first, second⟩
      exact ⟨u, v, split, (iha isRow.1).mp first, (ihb isRow.2).mp second⟩
    · rintro ⟨u, v, split, first, second⟩
      exact ⟨u, v, split, (iha isRow.1).mpr first, (ihb isRow.2).mpr second⟩
  | alt a b => exact absurd isRow id
  | optional a ih =>
    rw [items, matches_inRow_singleton]
    exact or_congr (ih isRow) Iff.rfl

/-- A row behind the alternatives before it. -/
theorem matches_expr (branches row : List RegularExpr) {before here after : Text} :
    (Level.expr ⟨branches, row.reverse⟩).Matches before here after ↔
      (∃ e ∈ branches, e.Matches before here after) ∨ (inRow row).Matches before here after := by
  have folded : ∀ last : RegularExpr,
      (branches.foldl (fun later branch => .alt branch later) last).Matches before here after ↔
        (∃ e ∈ branches, e.Matches before here after) ∨ last.Matches before here after := by
    induction branches with
    | nil => simp
    | cons e branches ih =>
      intro last
      rw [List.foldl_cons, ih, RegularExpr.Matches]
      simp only [List.mem_cons, exists_eq_or_imp]
      exact or_left_comm.trans or_assoc.symm
  rw [Level.expr, folded, List.reverse_reverse]

/-- Some patterns are read as alternatives, behind those that have been read before. -/
theorem exists_readOn_oneOf {ps : List Pattern} (rows : ∀ p ∈ ps, p.IsRow)
    (branches : List RegularExpr) :
    ∃ level : Level,
      (∀ outer t, readOn outer ⟨branches, []⟩ (text (oneOf ps) ++ t) = readOn outer level t) ∧
      ∀ before here after, level.expr.Matches before here after ↔
        (∃ e ∈ branches, e.Matches before here after) ∨ (oneOf ps).Matches here := by
  induction ps generalizing branches with
  | nil => exact ⟨⟨branches, []⟩, fun _ _ => rfl, fun _ _ _ => matches_expr branches []⟩
  | cons p ps ih =>
    have isRow : p.IsRow := rows p List.mem_cons_self
    cases ps with
    | nil =>
      refine ⟨⟨branches, p.items.reverse⟩, ?_, ?_⟩
      · intro outer t
        rw [oneOf, readOn_text isRow, List.append_nil]
      · intro before here after
        rw [matches_expr, matches_items isRow]
        rfl
    | cons q ps =>
      -- the bar ends the row of the first pattern, and the others are read behind it
      obtain ⟨level, read, means⟩ :=
        ih (fun r m => rows r (List.mem_cons_of_mem _ m)) (inRow p.items :: branches)
      refine ⟨level, ?_, ?_⟩
      · intro outer t
        rw [oneOf, text, List.append_assoc, readOn_text isRow, List.append_nil, List.cons_append,
          readOn_bar, Level.branch, List.reverse_reverse, read]
      · intro before here after
        rw [means, oneOf, Pattern.Matches]
        simp only [List.mem_cons, exists_eq_or_imp, matches_items isRow]
        rw [or_assoc, or_left_comm]

/-- **What is written means what is matched.** Patterns without alternatives, written as the
alternatives of one group between anchors, are found in exactly the texts that the group of patterns
matches. -/
theorem exists_read_anchored {ps : List Pattern} (rows : ∀ p ∈ ps, p.IsRow) :
    ∃ e, read? (oneOf ps).anchored = some e ∧
      ∀ t, e.FoundIn t ↔ (oneOf ps).matchesAll t = true := by
  obtain ⟨inner, read, means⟩ := exists_readOn_oneOf rows []
  refine ⟨inRow [.atStart, inner.expr, .atEnd], ?_, ?_⟩
  · rw [read?, anchored, List.append_assoc]
    show readOn [⟨[], [.atStart]⟩] ⟨[], []⟩ (text (oneOf ps) ++ ")$".toList) = _
    rw [read]
    rfl
  · intro t
    have inside : ∀ before here after, inner.expr.Matches before here after ↔
        (oneOf ps).Matches here := by
      intro before here after
      rw [means]
      simp
    rw [matchesAll_iff]
    constructor
    · -- the anchors leave nothing on either side of what the group matches
      rintro ⟨before, _, after, rfl, _, _, rfl, ⟨rfl, rfl⟩, u, _, rfl, group, _, _, rfl, ⟨rfl, ends⟩,
        rfl⟩
      obtain rfl : after = [] := ends
      simpa using (inside _ _ _).mp group
    · intro whole
      refine ⟨[], t, [], by simp, [], t, rfl, ⟨rfl, rfl⟩, t, [], by simp, ?_, [], [], rfl,
        ⟨rfl, rfl⟩, rfl⟩
      exact (inside _ _ _).mpr whole

end Pattern

end DoRunner
