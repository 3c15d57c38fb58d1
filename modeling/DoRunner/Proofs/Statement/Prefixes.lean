import DoRunner.Proofs.Source.Line
import DoRunner.Proofs.Statement.Abbreviations
import DoRunner.Statement.Plot

/-!
# Statements behind prefixes

A prefix is written as an accepted spelling of its name and whatever parts it from the statement that
it wraps: blanks or a colon behind an echo prefix, groups up to a colon behind a grouping one.
`StatementPrefix` holds what is written together with what makes it a prefix.

Taking the head of a statement passes one prefix after the other (`headFrom_text`) and only takes note
of what it has passed, so the command found is that of the statement without its prefixes
(`statementHead_prefixes`). Whether a statement draws depends on its command alone.
-/

namespace DoRunner

/-! ## Prefixes as they are written -/

/-- What parts an echo prefix from what it wraps. -/
inductive PartsEcho : Text → Prop where
  /-- Blanks. -/
  | blanks {gap : Text} (some : gap ≠ []) (blank : Text.blank gap = true) : PartsEcho gap
  /-- A colon, with or without blanks around it. -/
  | colon (before after : Text) (blankBefore : Text.blank before = true)
      (blankAfter : Text.blank after = true) : PartsEcho (before ++ ':' :: after)

/-- A prefix that changes the echo. -/
structure EchoPrefix where
  /-- Which prefix it is. -/
  command : Abbreviation
  /-- It is one that changes the echo. -/
  known : command ∈ echoPrefixes
  /-- How it is spelt. -/
  word : Text
  /-- The spelling is accepted. -/
  spelt : command.Spells word
  /-- What stands behind it. -/
  gap : Text
  /-- It is parted from what it wraps. -/
  parted : PartsEcho gap

/-- A prefix that runs a command by groups. -/
structure GroupPrefix where
  /-- Which prefix it is. -/
  command : Abbreviation
  /-- It is one that runs a command by groups. -/
  known : command ∈ groupPrefixes
  /-- How it is spelt. -/
  word : Text
  /-- The spelling is accepted. -/
  spelt : command.Spells word
  /-- What stands between the spelling and the colon. -/
  groups : Text
  /-- The colon that ends it is the first. -/
  colonFree : ':' ∉ groups
  /-- The spelling does not go on in it. -/
  apart : ∀ c, groups.head? = some c → isCommandChar c = false
  /-- What stands behind the colon. -/
  gap : Text
  /-- There are blanks behind the colon, or nothing. -/
  blank : Text.blank gap = true

/-- A prefix of a statement. -/
inductive StatementPrefix where
  /-- One that changes the echo. -/
  | echo (p : EchoPrefix)
  /-- One that runs a command by groups. -/
  | group (p : GroupPrefix)

namespace StatementPrefix

/-- The prefix as it is written. -/
def text : StatementPrefix → Text
  | echo p => p.word ++ p.gap
  | group p => p.word ++ p.groups ++ ':' :: p.gap

/-- Whether the prefix changes the echo. -/
def changesEcho : StatementPrefix → Bool
  | echo _ => true
  | group _ => false

/-- Whether the echo may be missing under the prefix. -/
def silences : StatementPrefix → Bool
  | echo p => decide (p.command ∈ silencingPrefixes)
  | group _ => false

end StatementPrefix

/-! ## The words of prefixes -/

theorem isCommandChar_of_isBlank {c : Char} (h : isBlank c = true) : isCommandChar c = false := by
  have none : ∀ n ∈ blankCodes, isCommandChar (Char.ofNat n) = false := by decide +kernel
  rw [← Char.ofNat_toNat c]
  exact none _ (toNat_mem_blankCodes h)

/-- A text that begins with neither a blank nor a colon. -/
def Opens (t : Text) : Prop := ∀ c, t.head? = some c → isBlank c = false ∧ c ≠ ':'

namespace Abbreviation

variable {a b : Abbreviation} {word : Text}

theorem Spells.ne_nil (h : a.Spells word) : word ≠ [] := by
  rintro rfl
  have enough := h.2
  rw [required, Text.byteLength] at enough
  omega

theorem Spells.head? (h : a.Spells word) : word.head? = a.word.head? := by
  obtain ⟨more, whole⟩ := h.1
  rw [← whole]
  cases word with
  | nil => exact absurd rfl h.ne_nil
  | cons c word => rfl

end Abbreviation

/-- The words of prefixes are made of letters. -/
theorem letters_of_known {a : Abbreviation} {word : Text} (known : a ∈ echoPrefixes ++ groupPrefixes)
    (spelt : a.Spells word) :
    ∀ c ∈ word, isCommandChar c = true ∧ isBlank c = false ∧ c ≠ ':' := by
  have letters : ((echoPrefixes ++ groupPrefixes).all fun a =>
      a.word.all fun c => isCommandChar c && !isBlank c && c != ':') = true := by decide
  intro c m
  have letter := List.all_eq_true.mp (List.all_eq_true.mp letters a known) c (spelt.1.subset m)
  simpa [and_assoc] using letter

/-- A word is cut off where a character follows that does not go on with it. -/
theorem leadingWord_append {word t : Text} (letters : ∀ c ∈ word, isCommandChar c = true)
    (apart : ∀ c, t.head? = some c → isCommandChar c = false) :
    leadingWord (word ++ t) = word ∧ afterWord (word ++ t) = t := by
  rw [leadingWord, afterWord, List.takeWhile_append_of_pos letters,
    List.dropWhile_append_of_pos letters]
  cases t with
  | nil => exact ⟨List.append_nil word, rfl⟩
  | cons c t =>
    have stops := apart c rfl
    rw [List.takeWhile_cons_of_neg (by simp [stops]), List.dropWhile_cons_of_neg (by simp [stops])]
    exact ⟨List.append_nil word, rfl⟩

theorem echoPrefixes_accept {a : Abbreviation} {word : Text} (known : a ∈ echoPrefixes)
    (spelt : a.Spells word) : echoPrefixes.accepts word = true :=
  (Catalog.accepts_iff_of_ne_nil (by decide) (by decide)).mpr ⟨a, known, spelt⟩

/-- No word spells prefixes of both kinds. -/
theorem echoPrefixes_refuse {a : Abbreviation} {word : Text} (known : a ∈ groupPrefixes)
    (spelt : a.Spells word) : echoPrefixes.accepts word = false := by
  have differ : ∀ a ∈ groupPrefixes, ∀ b ∈ echoPrefixes, a.word.head? ≠ b.word.head? := by decide
  rw [Bool.eq_false_iff, ne_eq, Catalog.accepts_iff_of_ne_nil (by decide) (by decide)]
  rintro ⟨b, m, speltToo⟩
  exact differ a known b m (spelt.head?.symm.trans speltToo.head?)

/-- Under which echo prefixes the echo may be missing, by their spelling. -/
theorem silencingPrefixes_accept {a : Abbreviation} {word : Text} (known : a ∈ echoPrefixes)
    (spelt : a.Spells word) :
    silencingPrefixes.accepts word = decide (a ∈ silencingPrefixes) := by
  have told : ∀ a ∈ echoPrefixes, ∀ b ∈ silencingPrefixes, a.word.head? = b.word.head? →
      a ∈ silencingPrefixes := by decide
  rw [Bool.eq_iff_iff, decide_eq_true_iff, Catalog.accepts_iff_of_ne_nil (by decide) (by decide)]
  constructor
  · rintro ⟨b, m, speltToo⟩
    exact told a known b m (spelt.head?.symm.trans speltToo.head?)
  · intro m
    exact ⟨a, m, spelt⟩

/-! ## Passing a prefix -/

/-- What parts an echo prefix does not go on with its word. -/
theorem PartsEcho.apart {gap : Text} (parted : PartsEcho gap) (t : Text) :
    ∀ c, (gap ++ t).head? = some c → isCommandChar c = false := by
  intro c first
  cases parted with
  | blanks some blank =>
    cases gap with
    | nil => exact absurd rfl some
    | cons d gap =>
      obtain rfl : d = c := Option.some.inj first
      exact isCommandChar_of_isBlank (List.all_eq_true.mp blank d List.mem_cons_self)
  | colon before after blankBefore _ =>
    cases before with
    | nil =>
      obtain rfl : ':' = c := Option.some.inj first
      decide
    | cons d before =>
      obtain rfl : d = c := Option.some.inj first
      exact isCommandChar_of_isBlank (List.all_eq_true.mp blankBefore d List.mem_cons_self)

theorem Opens.trimStart {t : Text} (opens : Opens t) : Text.trimStart t = t :=
  Text.trimStart_of_head fun c first => (opens c first).1

/-- What an echo prefix wraps is what stands behind its gap. -/
theorem PartsEcho.afterEchoPrefix {gap t : Text} (parted : PartsEcho gap) (opens : Opens t) :
    afterEchoPrefix (gap ++ t) = t := by
  unfold DoRunner.afterEchoPrefix
  cases parted with
  | blanks _ blank =>
    rw [Text.trimStart_append_blank blank, opens.trimStart]
    split
    · exact absurd rfl (opens ':' rfl).2
    · rfl
  | colon before after blankBefore blankAfter =>
    rw [List.append_assoc, Text.trimStart_append_blank blankBefore, List.cons_append,
      Text.trimStart_of_head (t := ':' :: (after ++ t)) (by rintro c ⟨⟩; decide)]
    show Text.trimStart (after ++ t) = t
    rw [Text.trimStart_append_blank blankAfter, opens.trimStart]

theorem cutAt?_append_mark {mark : Char} {s : Text} (h : mark ∉ s) (t : Text) :
    Text.cutAt? mark (s ++ mark :: t) = some (s, t) := by
  have differ : ∀ c ∈ s, decide (c ≠ mark) = true := by
    intro c m
    exact decide_eq_true (fun same => h (same ▸ m))
  unfold Text.cutAt?
  rw [List.dropWhile_append_of_pos differ, List.takeWhile_append_of_pos differ,
    List.dropWhile_cons_of_neg (by simp), List.takeWhile_cons_of_neg (by simp), List.append_nil]

/-- No prefix is spelt with nothing. -/
theorem ne_nil_of_accepts {catalog : Catalog} {word : Text} (refuses : catalog.accepts [] = false)
    (accepts : catalog.accepts word = true) : word ≠ [] := by
  rintro rfl
  exact absurd (refuses.symm.trans accepts) (by decide)

section Head

variable (prefixed silenced : Bool)

/-- Behind an echo prefix, taking the head goes on behind its gap. -/
theorem headFrom_of_echo {t : Text} (echo : echoPrefixes.accepts (leadingWord t) = true) :
    headFrom prefixed silenced t
      = headFrom true (silenced || silencingPrefixes.accepts (leadingWord t))
          (afterEchoPrefix (afterWord t)) := by
  rw [headFrom, dif_neg (ne_nil_of_accepts (by decide) echo), if_pos echo]

/-- Behind a grouping prefix, taking the head goes on behind its colon. -/
theorem headFrom_of_group {t groups more : Text}
    (plain : echoPrefixes.accepts (leadingWord t) = false)
    (group : groupPrefixes.accepts (leadingWord t) = true)
    (cut : Text.cutAt? ':' (afterWord t) = some (groups, more)) :
    headFrom prefixed silenced t = headFrom prefixed silenced (Text.trimStart more) := by
  rw [headFrom, dif_neg (ne_nil_of_accepts (by decide) group), if_neg (Bool.eq_false_iff.mp plain),
    if_pos group]
  split
  · rename_i groups' more' found
    obtain ⟨-, rfl⟩ := Prod.mk.inj (Option.some.inj (cut.symm.trans found))
    rfl
  · rename_i missing
    exact absurd (cut.symm.trans missing) (by simp)

/-- A word that is no prefix is the command. So is a grouping prefix without a colon behind it. -/
theorem headFrom_of_command {t : Text} (plain : echoPrefixes.accepts (leadingWord t) = false)
    (ungrouped : groupPrefixes.accepts (leadingWord t) = true →
      Text.cutAt? ':' (afterWord t) = none) :
    headFrom prefixed silenced t = ⟨prefixed, silenced, leadingWord t, afterWord t⟩ := by
  rw [headFrom]
  split
  · rfl
  rw [if_neg (Bool.eq_false_iff.mp plain)]
  split
  · rename_i group
    split
    · rename_i groups more cut
      exact absurd ((ungrouped group).symm.trans cut) (by simp)
    · rfl
  · rfl

/-- Passing a prefix is taking note of it and going on behind it. -/
theorem headFrom_text (p : StatementPrefix) {t : Text} (opens : Opens t) :
    headFrom prefixed silenced (p.text ++ t)
      = headFrom (prefixed || p.changesEcho) (silenced || p.silences) t := by
  cases p with
  | echo p =>
    obtain ⟨command, known, word, spelt, gap, parted⟩ := p
    have letters := letters_of_known (List.mem_append_left _ known) spelt
    obtain ⟨leading, behind⟩ :=
      leadingWord_append (fun c m => (letters c m).1) (parted.apart t)
    have accepted := echoPrefixes_accept known spelt
    rw [← leading] at accepted
    rw [StatementPrefix.text, List.append_assoc, headFrom_of_echo _ _ accepted, leading, behind,
      parted.afterEchoPrefix opens, silencingPrefixes_accept known spelt, StatementPrefix.changesEcho,
      StatementPrefix.silences, Bool.or_true]
  | group p =>
    obtain ⟨command, known, word, spelt, groups, colonFree, apart, gap, blank⟩ := p
    have letters := letters_of_known (List.mem_append_right _ known) spelt
    have apartFrom : ∀ c, (groups ++ ':' :: (gap ++ t)).head? = some c →
        isCommandChar c = false := by
      intro c first
      cases groups with
      | nil =>
        obtain rfl : ':' = c := Option.some.inj first
        decide
      | cons d groups => exact apart c first
    obtain ⟨leading, behind⟩ := leadingWord_append (fun c m => (letters c m).1) apartFrom
    have accepted : groupPrefixes.accepts word = true :=
      (Catalog.accepts_iff_of_ne_nil (by decide) (by decide)).mpr ⟨command, known, spelt⟩
    have plain := echoPrefixes_refuse known spelt
    have cut := cutAt?_append_mark colonFree (gap ++ t)
    rw [← leading] at accepted plain
    rw [← behind] at cut
    rw [StatementPrefix.text, List.append_assoc, List.append_assoc, List.cons_append,
      headFrom_of_group _ _ plain accepted cut, Text.trimStart_append_blank blank, opens.trimStart,
      StatementPrefix.changesEcho, StatementPrefix.silences, Bool.or_false, Bool.or_false]

omit prefixed silenced in
/-- A prefix begins with a letter. -/
theorem opens_text (p : StatementPrefix) (t : Text) : Opens (p.text ++ t) := by
  have spelt : ∀ {a : Abbreviation} {word : Text}, a ∈ echoPrefixes ++ groupPrefixes →
      a.Spells word → ∀ rest, Opens (word ++ rest) := by
    intro a word known spelt rest c first
    cases word with
    | nil => exact absurd rfl spelt.ne_nil
    | cons d word =>
      obtain rfl : d = c := Option.some.inj first
      exact (letters_of_known known spelt d List.mem_cons_self).2
  cases p with
  | echo p =>
    rw [StatementPrefix.text, List.append_assoc]
    exact spelt (List.mem_append_left _ p.known) p.spelt _
  | group p =>
    rw [StatementPrefix.text, List.append_assoc, List.append_assoc]
    exact spelt (List.mem_append_right _ p.known) p.spelt _

omit prefixed silenced in
theorem opens_flatMap (prefixes : List StatementPrefix) {t : Text} (opens : Opens t) :
    Opens (prefixes.flatMap StatementPrefix.text ++ t) := by
  cases prefixes with
  | nil => exact opens
  | cons p prefixes =>
    rw [List.flatMap_cons, List.append_assoc]
    exact opens_text p _

/-- Passing some prefixes is taking note of each of them. -/
theorem headFrom_flatMap (prefixes : List StatementPrefix) {t : Text} (opens : Opens t) :
    headFrom prefixed silenced (prefixes.flatMap StatementPrefix.text ++ t)
      = headFrom (prefixed || prefixes.any (·.changesEcho)) (silenced || prefixes.any (·.silences))
          t := by
  induction prefixes generalizing prefixed silenced with
  | nil => rw [List.any_nil, List.any_nil, Bool.or_false, Bool.or_false]; rfl
  | cons p prefixes ih =>
    rw [List.flatMap_cons, List.append_assoc, headFrom_text _ _ p (opens_flatMap prefixes opens), ih,
      List.any_cons, List.any_cons, Bool.or_assoc, Bool.or_assoc]

omit prefixed silenced in
/-- How taking a head goes on depends on the text alone: behind an echo prefix, behind a grouping
prefix, or not at all. -/
theorem headFrom_cases (t : Text) :
    (∃ silences more, more.length < t.length ∧
      ∀ prefixed silenced, headFrom prefixed silenced t = headFrom true (silenced || silences) more) ∨
    (∃ more, more.length < t.length ∧
      ∀ prefixed silenced, headFrom prefixed silenced t = headFrom prefixed silenced more) ∨
    ∃ command rest, ∀ prefixed silenced,
      headFrom prefixed silenced t = ⟨prefixed, silenced, command, rest⟩ := by
  cases echo : echoPrefixes.accepts (leadingWord t) with
  | true =>
    have word := ne_nil_of_accepts (by decide) echo
    exact .inl ⟨_, _, Nat.lt_of_le_of_lt (length_afterEchoPrefix_le _) (length_afterWord_lt word),
      fun prefixed silenced => headFrom_of_echo prefixed silenced echo⟩
  | false =>
    cases group : groupPrefixes.accepts (leadingWord t) with
    | false =>
      refine .inr (.inr ⟨_, _, fun prefixed silenced =>
        headFrom_of_command prefixed silenced echo fun accepts => ?_⟩)
      exact absurd (group.symm.trans accepts) (by decide)
    | true =>
      have word := ne_nil_of_accepts (by decide) group
      cases cut : Text.cutAt? ':' (afterWord t) with
      | none =>
        exact .inr (.inr ⟨_, _, fun prefixed silenced =>
          headFrom_of_command prefixed silenced echo fun _ => cut⟩)
      | some found =>
        exact .inr (.inl ⟨_, Nat.lt_of_le_of_lt (length_trimStart_le _)
          (Nat.lt_trans (length_cutAt?_lt cut) (length_afterWord_lt word)),
          fun prefixed silenced => headFrom_of_group prefixed silenced echo group cut⟩)

/-- What has been passed is noted, and makes no difference to what is found. -/
theorem headFrom_eq (t : Text) :
    headFrom prefixed silenced t =
      { headFrom false false t with
        prefixed := prefixed || (headFrom false false t).prefixed
        silenced := silenced || (headFrom false false t).silenced } := by
  -- the notes change on the way, so the induction is for all of them at once
  induction length : t.length using Nat.strongRecOn generalizing t prefixed silenced with
  | ind n ih =>
    subst length
    rcases headFrom_cases t with ⟨silences, more, shorter, echo⟩ | ⟨more, shorter, group⟩ |
      ⟨command, rest, ends⟩
    · rw [echo, echo, ih _ shorter true (silenced || silences) more rfl,
        ih _ shorter true (false || silences) more rfl, Bool.true_or, Bool.or_true, Bool.false_or,
        Bool.or_assoc]
    · rw [group, group]
      exact ih _ shorter prefixed silenced more rfl
    · rw [ends, ends, Bool.or_false, Bool.or_false]

end Head

/-- **Prefixes are transparent.** However many prefixes stand before a statement, its head has the
command and the rest that it has without them, and tells besides which kinds of prefixes are there.
So a statement draws behind prefixes exactly when it draws without them. -/
theorem statementHead_prefixes (prefixes : List StatementPrefix) (statement : Text)
    (opens : Opens statement) :
    let line := prefixes.flatMap StatementPrefix.text ++ statement
    let head := statementHead statement
    statementHead line =
      { prefixed := prefixes.any (·.changesEcho) || head.prefixed
        silenced := prefixes.any (·.silences) || head.silenced
        command := head.command
        rest := head.rest } ∧
    ∀ catalog : PlotCatalog, catalog.isPlotLine line = catalog.isPlotLine statement := by
  intro line head
  have opensLine : Opens line := opens_flatMap prefixes opens
  have passed : statementHead line =
      { head with
        prefixed := prefixes.any (·.changesEcho) || head.prefixed
        silenced := prefixes.any (·.silences) || head.silenced } := by
    show headFrom false false (Text.trimStart line) = _
    rw [opensLine.trimStart, headFrom_flatMap _ _ _ opens, headFrom_eq, Bool.false_or, Bool.false_or]
    show _ = { statementHead statement with
        prefixed := prefixes.any (·.changesEcho) || (statementHead statement).prefixed
        silenced := prefixes.any (·.silences) || (statementHead statement).silenced }
    rw [statementHead, opens.trimStart]
  refine ⟨passed, fun catalog => ?_⟩
  unfold PlotCatalog.isPlotLine
  rw [passed]

/-- Prefixes of both kinds, one with a colon between blanks. -/
theorem statementHead_prefixes_scatter :
    let prefixes : List StatementPrefix :=
      [.echo ⟨⟨"quietly".toList, 3⟩, by decide, "qui".toList, by decide, [' '],
        .blanks (by decide) (by decide)⟩,
       .group ⟨⟨"bysort".toList, 3⟩, by decide, "bys".toList, by decide, " foreign (mpg)".toList,
        by decide, by rintro c ⟨⟩; decide, [], by decide⟩,
       .echo ⟨⟨"noisily".toList, 1⟩, by decide, ['n'], by decide, " : ".toList,
        .colon [' '] [' '] (by decide) (by decide)⟩]
    let statement := "scatter y x".toList
    let line := "qui bys foreign (mpg):n : scatter y x".toList
    prefixes.flatMap StatementPrefix.text ++ statement = line ∧ Opens statement ∧
    statementHead statement = ⟨false, false, "scatter".toList, " y x".toList⟩ ∧
    statementHead line = ⟨true, true, "scatter".toList, " y x".toList⟩ ∧
    (PlotCatalog.mk []).isPlotLine line = (PlotCatalog.mk []).isPlotLine statement := by
  intro prefixes statement line
  have written : prefixes.flatMap StatementPrefix.text ++ statement = line := by decide
  have opens : Opens statement := by rintro c ⟨⟩; decide
  have alone : statementHead statement = ⟨false, false, "scatter".toList, " y x".toList⟩ := by
    decide +kernel
  obtain ⟨head, plots⟩ := statementHead_prefixes prefixes statement opens
  rw [written, alone] at head
  rw [written] at plots
  exact ⟨written, opens, alone, head, plots _⟩

end DoRunner
