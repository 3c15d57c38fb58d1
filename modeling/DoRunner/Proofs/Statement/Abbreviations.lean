import DoRunner.Proofs.Statement.RegularExpr
import DoRunner.Proofs.Text.Lines

/-!
# Accepted spellings

An accepted spelling of a word is a beginning of it that is long enough: `Abbreviation.Spells` says so
without patterns. The pattern of an abbreviation matches exactly these texts, provided that the
required bytes are whole characters of the word, and the pattern of a catalog matches the accepted
spellings of its words, if it has any words (`Catalog.accepts_iff`). Both are so by the structure of
the pattern and by its written form (`abbreviations_exact`).
-/

namespace DoRunner

namespace Text

theorem byteLength_eq_zero_iff {t : Text} : byteLength t = 0 ↔ t = [] := by
  cases t with
  | nil => exact iff_of_true rfl rfl
  | cons c t =>
    have := c.utf8Size_pos
    rw [byteLength]
    exact iff_of_false (by omega) (List.cons_ne_nil c t)

/-- Of two beginnings of a text, the one with fewer bytes begins the other. -/
theorem prefix_of_byteLength_le {s u t : Text} (hs : s <+: t) (hu : u <+: t)
    (bytes : byteLength u ≤ byteLength s) : u <+: s := by
  rcases List.prefix_or_prefix_of_prefix hu hs with shorter | ⟨more, rfl⟩
  · exact shorter
  · rw [byteLength_append] at bytes
    obtain rfl : more = [] := byteLength_eq_zero_iff.mp (by omega)
    simp

end Text

/-! ## What the parts of a pattern match -/

namespace Pattern

theorem matches_literal {word t : Text} : (literal word).Matches t ↔ t = word := by
  induction word generalizing t with
  | nil => exact Iff.rfl
  | cons c word ih =>
    constructor
    · rintro ⟨_, v, rfl, rfl, rest⟩
      rw [ih.mp rest]
      rfl
    · rintro rfl
      exact ⟨[c], word, rfl, rfl, ih.mpr rfl⟩

theorem matches_beginnings {word t : Text} : (beginnings word).Matches t ↔ t <+: word := by
  induction word generalizing t with
  | nil => exact List.prefix_nil.symm
  | cons c word ih =>
    rw [List.prefix_cons_iff]
    constructor
    · rintro (⟨_, v, rfl, rfl, rest⟩ | rfl)
      · exact .inr ⟨v, rfl, ih.mp rest⟩
      · exact .inl rfl
    · rintro (rfl | ⟨v, rfl, rest⟩)
      · exact .inr rfl
      · exact .inl ⟨[c], v, rfl, rfl, ih.mpr rest⟩

/-- One of no patterns matches nothing but the empty text. -/
theorem matches_oneOf {ps : List Pattern} {t : Text} :
    (oneOf ps).Matches t ↔ (∃ p ∈ ps, p.Matches t) ∨ ps = [] ∧ t = [] := by
  induction ps with
  | nil => simp [oneOf, Matches]
  | cons p ps ih =>
    cases ps with
    | nil => simp [oneOf]
    | cons q ps =>
      rw [oneOf, Matches, ih]
      simp

theorem isRow_literal (word : Text) : (literal word).IsRow := by
  induction word with
  | nil => trivial
  | cons c word ih => exact ⟨trivial, ih⟩

theorem isRow_beginnings (word : Text) : (beginnings word).IsRow := by
  induction word with
  | nil => trivial
  | cons c word ih => exact ⟨trivial, ih⟩

end Pattern

/-! ## One word -/

namespace Abbreviation

/-- Whether a text is an accepted spelling: a beginning of the word that has the bytes required. -/
def Spells (a : Abbreviation) (t : Text) : Prop :=
  t <+: a.word ∧ a.required ≤ Text.byteLength t

instance (a : Abbreviation) (t : Text) : Decidable (a.Spells t) := by
  unfold Spells
  infer_instance

/-- Whether the required bytes are whole characters of the word. Those of an empty word are not, since
one byte is required at least. -/
def RequiresWhole (a : Abbreviation) : Prop :=
  ∃ needed, needed <+: a.word ∧ Text.byteLength needed = a.required

theorem cutAtByte?_eq_some_iff {n : Nat} {t before after : Text} :
    cutAtByte? n t = some (before, after) ↔ t = before ++ after ∧ Text.byteLength before = n := by
  induction t generalizing n before with
  | nil =>
    cases n with
    | zero =>
      rw [cutAtByte?, Text.byteLength_eq_zero_iff]
      simp +contextual [eq_comm]
    | succ n =>
      rw [cutAtByte?]
      simp +contextual [eq_comm, Text.byteLength]
  | cons c t ih =>
    cases n with
    | zero =>
      rw [cutAtByte?, Text.byteLength_eq_zero_iff]
      constructor
      · intro cut
        obtain ⟨rfl, rfl⟩ := Prod.mk.inj (Option.some.inj cut)
        exact ⟨rfl, rfl⟩
      · rintro ⟨split, rfl⟩
        rw [split, List.nil_append]
    | succ n =>
      have size := c.utf8Size_pos
      rw [cutAtByte?]
      constructor
      · intro cut
        split at cut
        · obtain ⟨⟨front, back⟩, found, same⟩ := Option.map_eq_some_iff.mp cut
          obtain ⟨rfl, rfl⟩ := Prod.mk.inj same
          obtain ⟨rfl, bytes⟩ := ih.mp found
          exact ⟨rfl, by rw [Text.byteLength]; omega⟩
        · exact absurd cut (by simp)
      · rintro ⟨split, bytes⟩
        cases before with
        | nil => exact absurd bytes (by rw [Text.byteLength]; omega)
        | cons d front =>
          obtain ⟨rfl, rfl⟩ := List.cons.inj split
          rw [Text.byteLength] at bytes
          rw [if_pos (by omega), ih.mpr ⟨rfl, by omega⟩]
          rfl

theorem requiresWhole_iff {a : Abbreviation} : a.RequiresWhole ↔ a.pattern?.isSome = true := by
  rw [pattern?, Option.isSome_map, Option.isSome_iff_exists]
  constructor
  · rintro ⟨needed, ⟨further, whole⟩, bytes⟩
    exact ⟨(needed, further), cutAtByte?_eq_some_iff.mpr ⟨whole.symm, bytes⟩⟩
  · rintro ⟨⟨needed, further⟩, cut⟩
    obtain ⟨whole, bytes⟩ := cutAtByte?_eq_some_iff.mp cut
    exact ⟨needed, ⟨further, whole.symm⟩, bytes⟩

instance (a : Abbreviation) : Decidable a.RequiresWhole :=
  decidable_of_iff _ requiresWhole_iff.symm

/-- **The pattern of a word matches its accepted spellings.** -/
theorem exists_pattern {a : Abbreviation} (whole : a.RequiresWhole) :
    ∃ p, a.pattern? = some p ∧ p.IsRow ∧ ∀ t, p.Matches t ↔ a.Spells t := by
  obtain ⟨needed, ⟨further, split⟩, bytes⟩ := whole
  have cut : cutAtByte? a.required a.word = some (needed, further) :=
    cutAtByte?_eq_some_iff.mpr ⟨split.symm, bytes⟩
  refine ⟨.seq (.literal needed) (.beginnings further), by rw [pattern?, cut]; rfl,
    ⟨Pattern.isRow_literal needed, Pattern.isRow_beginnings further⟩, fun t => ?_⟩
  rw [Spells, ← split, ← bytes]
  constructor
  · rintro ⟨u, v, rfl, first, second⟩
    rw [Pattern.matches_literal] at first
    subst first
    rw [Pattern.matches_beginnings] at second
    rw [Text.byteLength_append]
    exact ⟨List.prefix_append_right_inj _ |>.mpr second, by omega⟩
  · rintro ⟨begins, enough⟩
    -- a spelling with enough bytes cannot end inside the required part
    obtain ⟨v, rfl⟩ :=
      Text.prefix_of_byteLength_le begins (List.prefix_append needed further) enough
    exact ⟨needed, v, rfl, Pattern.matches_literal.mpr rfl,
      Pattern.matches_beginnings.mpr ((List.prefix_append_right_inj needed).mp begins)⟩

end Abbreviation

/-! ## Catalogs -/

namespace Catalog

variable {catalog : Catalog}

theorem isRow_of_mem (whole : ∀ a ∈ catalog, a.RequiresWhole) {p : Pattern}
    (m : p ∈ catalog.filterMap Abbreviation.pattern?) : p.IsRow := by
  obtain ⟨a, ma, shown⟩ := List.mem_filterMap.mp m
  obtain ⟨q, found, isRow, -⟩ := Abbreviation.exists_pattern (whole a ma)
  rw [Option.some.inj (shown.symm.trans found)]
  exact isRow

/-- The words of a catalog all have patterns. -/
theorem patterns_eq_nil_iff (whole : ∀ a ∈ catalog, a.RequiresWhole) :
    catalog.filterMap Abbreviation.pattern? = [] ↔ catalog = [] := by
  rw [List.filterMap_eq_nil_iff, List.eq_nil_iff_forall_not_mem]
  refine forall₂_congr fun a m => iff_of_false ?_ not_false
  obtain ⟨p, found, -⟩ := Abbreviation.exists_pattern (whole a m)
  rw [found]
  exact Option.some_ne_none p

/-- **A catalog accepts the spellings of its words.** One without words accepts the empty text. -/
theorem accepts_iff (whole : ∀ a ∈ catalog, a.RequiresWhole) {t : Text} :
    catalog.accepts t = true ↔ (∃ a ∈ catalog, a.Spells t) ∨ catalog = [] ∧ t = [] := by
  have one : (∃ p ∈ catalog.filterMap Abbreviation.pattern?, p.Matches t) ↔
      ∃ a ∈ catalog, a.Spells t := by
    constructor
    · rintro ⟨p, m, isMatch⟩
      obtain ⟨a, ma, shown⟩ := List.mem_filterMap.mp m
      obtain ⟨q, found, -, means⟩ := Abbreviation.exists_pattern (whole a ma)
      rw [Option.some.inj (shown.symm.trans found)] at isMatch
      exact ⟨a, ma, (means t).mp isMatch⟩
    · rintro ⟨a, ma, spelt⟩
      obtain ⟨q, found, -, means⟩ := Abbreviation.exists_pattern (whole a ma)
      exact ⟨q, List.mem_filterMap.mpr ⟨a, ma, found⟩, (means t).mpr spelt⟩
  rw [accepts, pattern, Pattern.matchesAll_iff, Pattern.matches_oneOf, one,
    patterns_eq_nil_iff whole]

theorem accepts_iff_of_ne_nil (whole : ∀ a ∈ catalog, a.RequiresWhole) (words : catalog ≠ [])
    {t : Text} : catalog.accepts t = true ↔ ∃ a ∈ catalog, a.Spells t :=
  (accepts_iff whole).trans (or_iff_left fun empty => words empty.1)

end Catalog

/-- **Abbreviations are accepted exactly.** The pattern of a word exists when the bytes that it requires
are whole characters; written out, in a group between anchors, it matches the beginnings of the word
with that many bytes or more, and nothing else. The same holds of a catalog of such words, whether its pattern is written out or used
as it is. The pattern of no words is the empty one, which matches the empty text. -/
theorem abbreviations_exact :
    (∀ a : Abbreviation, a.RequiresWhole →
      ∃ p e, a.pattern? = some p ∧ RegularExpr.read? p.anchored = some e ∧
        ∀ t, e.FoundIn t ↔ a.Spells t) ∧
    ∀ catalog : Catalog, (∀ a ∈ catalog, a.RequiresWhole) →
      (∃ e, RegularExpr.read? catalog.pattern.anchored = some e ∧
        ∀ t, e.FoundIn t ↔ catalog.accepts t = true) ∧
      ∀ t, catalog.accepts t = true ↔ (∃ a ∈ catalog, a.Spells t) ∨ catalog = [] ∧ t = [] := by
  constructor
  · intro a whole
    obtain ⟨p, shown, isRow, means⟩ := Abbreviation.exists_pattern whole
    have rows : ∀ q ∈ [p], q.IsRow := by
      intro q m
      rw [List.mem_singleton.mp m]
      exact isRow
    obtain ⟨e, read, found⟩ := Pattern.exists_read_anchored rows
    refine ⟨p, e, shown, read, fun t => ?_⟩
    rw [found, Pattern.matchesAll_iff]
    exact means t
  · intro catalog whole
    refine ⟨Pattern.exists_read_anchored fun p m => Catalog.isRow_of_mem whole m, ?_⟩
    intro t
    exact Catalog.accepts_iff whole

/-- Without words the pattern is a group of nothing, and the empty text, which spells no word, is
accepted. -/
theorem accepts_noWords :
    let catalog : Catalog := []
    catalog.pattern.anchored = "^(?:)$".toList ∧ (∀ a ∈ catalog, a.RequiresWhole) ∧
      catalog.accepts [] = true ∧ ¬ ∃ a ∈ catalog, a.Spells [] := by decide

/-- A word that requires a character of two bytes, and one with a character that has a meaning in
regular expressions. -/
theorem abbreviations_exact_umlaut :
    let a : Abbreviation := ⟨"größe".toList, 4⟩
    let catalog : Catalog := [a, ⟨"x.y".toList, 0⟩]
    (a.RequiresWhole ∧ ∃ p e, a.pattern? = some p ∧ RegularExpr.read? p.anchored = some e ∧
      ∀ t, e.FoundIn t ↔ a.Spells t) ∧
    ((∀ b ∈ catalog, b.RequiresWhole) ∧
      ∃ e, RegularExpr.read? catalog.pattern.anchored = some e ∧
        ∀ t, e.FoundIn t ↔ catalog.accepts t = true) ∧
    catalog.pattern.anchored = "^(?:grö(?:ß(?:e)?)?|x(?:\\.(?:y)?)?)$".toList ∧
    (∀ t, catalog.accepts t = true ↔ ∃ b ∈ catalog, b.Spells t) ∧
    catalog.accepts "größ".toList = true ∧ catalog.accepts "xz".toList = false := by
  intro a catalog
  have whole : ∀ b ∈ catalog, b.RequiresWhole := by decide
  have words : catalog ≠ [] := by decide
  have one := abbreviations_exact.1 a (whole a List.mem_cons_self)
  obtain ⟨written, accepted⟩ := abbreviations_exact.2 catalog whole
  have spelt : ∀ t, catalog.accepts t = true ↔ ∃ b ∈ catalog, b.Spells t :=
    fun t => (accepted t).trans (or_iff_left fun none => words none.1)
  exact ⟨⟨whole a List.mem_cons_self, one⟩, ⟨whole, written⟩, by decide, spelt, by decide⟩

end DoRunner
