import Mathlib.Data.Nat.Find
import DoRunner.Proofs.Text.Utf8
import DoRunner.Proofs.Text.Utf8Pieces

/-!
# Malformed parts

What bytes are shown as can be said without a decoder (`ShownAs`). They are a row of characters and
of malformed parts, and each malformed part is shown as one replacement. A part is malformed where
no character stands; it then takes all the bytes that a character begins with, or a single byte
where no character begins with that. All bytes can be read so, and in one way only.

The decoder looks at single bytes, and what it has open is a character that has been begun and not
ended: every such beginning stays open (`opens_iff_unfinished`), and a byte that ends it has
completed the encoding of the character that is read (`encode_of_feed`). So the decoder tells a
malformed part from a character where they differ, and shows what the bytes are shown as
(`shownAs_iff`). Nothing in that depends on where one piece ends and the next begins. What is held
back behind a piece does not depend on it either: it is the last character that has been begun, if
that is not complete (`held_append`, `Carry.decodeAll_finish`).
-/

namespace DoRunner.Utf8

/-! ## What is read as a character -/

theorem ofNat_of_eq {n : Nat} {a : UInt8} (h : n = a.toNat) : UInt8.ofNat n = a := by
  rw [h, UInt8.ofNat_toNat]

theorem lengthFrom_eq (a : UInt8) :
    lengthFrom a = if a.toNat < 0x80 then 1 else if a.toNat < 0xC2 then 0
      else if a.toNat < 0xE0 then 2 else if a.toNat < 0xF0 then 3
      else if a.toNat < 0xF5 then 4 else 0 := by
  have whole := lengthFrom_ofNat (UInt8.toNat_lt a)
  rwa [UInt8.ofNat_toNat] at whole

theorem tail_of_continues {begun : List UInt8} {b : UInt8} (h : continues begun b = true) :
    0x80 ≤ b.toNat ∧ b.toNat ≤ 0xBF := by
  unfold continues at h
  split at h <;>
    simp only [Bool.and_eq_true, decide_eq_true_eq, UInt8.le_iff_toNat_le, UInt8.reduceToNat] at h <;>
    omega

/-- The four leads after which fewer bytes may follow. -/
theorem second_of_continues {a b : UInt8} (h : continues [a] b = true) :
    (a.toNat = 0xE0 → 0xA0 ≤ b.toNat) ∧ (a.toNat = 0xED → b.toNat ≤ 0x9F) ∧
      (a.toNat = 0xF0 → 0x90 ≤ b.toNat) ∧ (a.toNat = 0xF4 → b.toNat ≤ 0x8F) := by
  refine ⟨?_, ?_, ?_, ?_⟩ <;> intro lead
  · obtain rfl : a = 0xE0 := UInt8.toNat_inj.mp lead
    simp only [continues, Bool.and_eq_true, decide_eq_true_eq, UInt8.le_iff_toNat_le] at h
    exact h.1
  · obtain rfl : a = 0xED := UInt8.toNat_inj.mp lead
    simp only [continues, Bool.and_eq_true, decide_eq_true_eq, UInt8.le_iff_toNat_le] at h
    exact h.2
  · obtain rfl : a = 0xF0 := UInt8.toNat_inj.mp lead
    simp only [continues, Bool.and_eq_true, decide_eq_true_eq, UInt8.le_iff_toNat_le] at h
    exact h.1
  · obtain rfl : a = 0xF4 := UInt8.toNat_inj.mp lead
    simp only [continues, Bool.and_eq_true, decide_eq_true_eq, UInt8.le_iff_toNat_le] at h
    exact h.2

/-- The bytes of the character with a given code point. -/
theorem encode_ofNat {v : Nat} (valid : v < 0xD800 ∨ 0xDFFF < v ∧ v < 0x110000) :
    String.utf8EncodeChar (Char.ofNat v) =
      if v ≤ 0x7F then [UInt8.ofNat v]
      else if v ≤ 0x7FF then [UInt8.ofNat (v / 64 % 0x20 + 0xC0), UInt8.ofNat (v % 0x40 + 0x80)]
      else if v ≤ 0xFFFF then
        [UInt8.ofNat (v / 4096 % 0x10 + 0xE0), UInt8.ofNat (v / 64 % 0x40 + 0x80),
          UInt8.ofNat (v % 0x40 + 0x80)]
      else
        [UInt8.ofNat (v / 262144 % 0x08 + 0xF0), UInt8.ofNat (v / 4096 % 0x40 + 0x80),
          UInt8.ofNat (v / 64 % 0x40 + 0x80), UInt8.ofNat (v % 0x40 + 0x80)] := by
  have point : (Char.ofNat v).val.toNat = v := by
    rw [Char.ofNat, dif_pos (show v.isValidChar from valid)]
    rfl
  unfold String.utf8EncodeChar
  rw [point]

theorem encode_one {a : UInt8} (ha : lengthFrom a = 1) :
    String.utf8EncodeChar (charOf [a]) = [a] := by
  have lead := lengthFrom_eq a
  have small : a.toNat < 0x80 := by grind
  rw [charOf, leadBits_eq ha, if_neg (by decide), if_neg (by decide), if_neg (by decide),
    List.foldl_nil, encode_ofNat (by omega), if_pos (by omega), ofNat_of_eq rfl]

theorem encode_two {a b : UInt8} (ha : lengthFrom a = 2) (hb : continues [a] b = true) :
    String.utf8EncodeChar (charOf [a, b]) = [a, b] := by
  have lead : 0xC2 ≤ a.toNat ∧ a.toNat < 0xE0 := by grind [lengthFrom_eq a]
  have second := tail_of_continues hb
  rw [charOf, leadBits_eq ha, if_pos rfl]
  dsimp only [List.foldl_cons, List.foldl_nil]
  rw [encode_ofNat (by omega), if_neg (by omega), if_pos (by omega), ofNat_of_eq (a := a) (by omega),
    ofNat_of_eq (a := b) (by omega)]

theorem encode_three {a b c : UInt8} (ha : lengthFrom a = 3) (hb : continues [a] b = true)
    (hc : continues [a, b] c = true) : String.utf8EncodeChar (charOf [a, b, c]) = [a, b, c] := by
  have lead : 0xE0 ≤ a.toNat ∧ a.toNat < 0xF0 := by grind [lengthFrom_eq a]
  have second := tail_of_continues hb
  have after := second_of_continues hb
  have third := tail_of_continues hc
  rw [charOf, leadBits_eq ha, if_neg (by decide), if_pos rfl]
  dsimp only [List.foldl_cons, List.foldl_nil]
  rw [encode_ofNat (by omega), if_neg (by omega), if_neg (by omega), if_pos (by omega),
    ofNat_of_eq (a := a) (by omega), ofNat_of_eq (a := b) (by omega),
    ofNat_of_eq (a := c) (by omega)]

theorem encode_four {a b c d : UInt8} (ha : lengthFrom a = 4) (hb : continues [a] b = true)
    (hc : continues [a, b] c = true) (hd : continues [a, b, c] d = true) :
    String.utf8EncodeChar (charOf [a, b, c, d]) = [a, b, c, d] := by
  have lead : 0xF0 ≤ a.toNat ∧ a.toNat < 0xF5 := by grind [lengthFrom_eq a]
  have second := tail_of_continues hb
  have after := second_of_continues hb
  have third := tail_of_continues hc
  have fourth := tail_of_continues hd
  rw [charOf, leadBits_eq ha, if_neg (by decide), if_neg (by decide), if_pos rfl]
  dsimp only [List.foldl_cons, List.foldl_nil]
  rw [encode_ofNat (by omega), if_neg (by omega), if_neg (by omega), if_neg (by omega),
    ofNat_of_eq (a := a) (by omega), ofNat_of_eq (a := b) (by omega),
    ofNat_of_eq (a := c) (by omega), ofNat_of_eq (a := d) (by omega)]

/-! ## What is open -/

theorem feed_nil (b : UInt8) : feed [] b = start b := if_pos rfl

theorem flush_of_ne_nil {p : List UInt8} (something : p ≠ []) : flush p = [.malformed] :=
  if_neg something

theorem flush_eq_nil {p : List UInt8} : flush p = [] ↔ p = [] := by
  refine ⟨fun h => ?_, fun nothing => if_pos nothing⟩
  by_contra something
  rw [flush_of_ne_nil something] at h
  exact absurd h (List.cons_ne_nil _ _)

/-- A byte that yields nothing goes on with what is open. -/
theorem feed_silent {p : List UInt8} {b : UInt8} (h : (feed p b).1 = []) :
    feed p b = ([], p ++ [b]) := by
  rcases feed_inv p b with ⟨-, -, read⟩ | ⟨-, -, read⟩ | ⟨-, read⟩
  · exact read
  · rw [read] at h
    exact absurd h (List.cons_ne_nil _ _)
  · rw [read] at h ⊢
    obtain ⟨closed, yields⟩ := List.append_eq_nil_iff.mp h
    rw [flush_eq_nil.mp closed]
    rcases start_inv b with ⟨-, started⟩ | ⟨-, started⟩ | ⟨-, started⟩
    · rw [started] at yields
      exact absurd yields (List.cons_ne_nil _ _)
    · rw [started] at yields
      exact absurd yields (List.cons_ne_nil _ _)
    · rw [started]
      rfl

theorem feedAll_silent {p bytes : List UInt8} (h : (feedAll p bytes).1 = []) :
    feedAll p bytes = ([], p ++ bytes) := by
  induction bytes generalizing p with
  | nil => rw [List.append_nil]; rfl
  | cons b bytes ih =>
    rw [feedAll] at h ⊢
    obtain ⟨first, rest⟩ := List.append_eq_nil_iff.mp h
    have goesOn := feed_silent first
    rw [goesOn] at rest ⊢
    dsimp only at rest ⊢
    rw [ih rest, List.append_assoc]
    rfl

/-- Just these bytes are open when they have been read. -/
def Opens (part : List UInt8) : Prop := feedAll [] part = ([], part)

theorem opens_nil : Opens [] := rfl

theorem opens_of_silent {part : List UInt8} (h : (feedAll [] part).1 = []) : Opens part :=
  feedAll_silent h

theorem Opens.of_prefix {p q : List UInt8} (h : Opens q) (within : p <+: q) : Opens p := by
  obtain ⟨more, rfl⟩ := within
  have silent : (feedAll [] (p ++ more)).1 = [] := congrArg Prod.fst h
  rw [feedAll_append] at silent
  exact opens_of_silent (List.append_eq_nil_iff.mp silent).1

theorem opens_concat {p : List UInt8} (h : Opens p) {b : UInt8} :
    Opens (p ++ [b]) ↔ feed p b = ([], p ++ [b]) := by
  unfold Opens at h ⊢
  rw [feedAll_concat, h]
  rfl

theorem Opens.length_lt {p : List UInt8} (h : Opens p) (something : p ≠ []) :
    p.length < expectedLength p := by
  rcases List.eq_nil_or_concat p with rfl | ⟨front, b, rfl⟩
  · exact absurd rfl something
  · rw [List.concat_eq_append] at h something ⊢
    have whole := (opens_concat (h.of_prefix (List.prefix_append front [b]))).mp h
    have short := length_feed_lt front b
    rwa [whole] at short

theorem Opens.length_le {p : List UInt8} (h : Opens p) : p.length ≤ 3 := by
  have short := length_held_le p
  rwa [h] at short

/-- What goes on with open bytes may follow them. -/
theorem Opens.continues {p : List UInt8} {b : UInt8} (h : Opens (p ++ [b])) (something : p ≠ []) :
    continues p b = true := by
  have step := (opens_concat (h.of_prefix (List.prefix_append p [b]))).mp h
  rcases feed_inv p b with ⟨goesOn, -⟩ | ⟨goesOn, -⟩ | ⟨-, read⟩
  · exact goesOn.2
  · exact goesOn.2
  · rw [read, flush_of_ne_nil something] at step
    exact absurd (congrArg Prod.fst step) (List.cons_ne_nil _ _)

/-- **What is read as a character is the encoding of it.** -/
theorem encode_of_feed {p : List UInt8} {b : UInt8} {c : Char} (opens : Opens p)
    (read : feed p b = ([.char c], [])) : String.utf8EncodeChar c = p ++ [b] := by
  rcases feed_inv p b with ⟨-, -, h⟩ | ⟨⟨something, goesOn⟩, long, h⟩ | ⟨-, h⟩
  · exact absurd (h.symm.trans read) (by simp)
  · have same : charOf (p ++ [b]) = c := by simpa using h.symm.trans read
    have full : expectedLength p = p.length + 1 := by
      have short := opens.length_lt something
      omega
    rw [← same]
    -- each byte was allowed by those before it, so the character has just these bits
    match p, opens, goesOn, full with
    | [a], _, second, two => exact encode_two two second
    | [a, x], opens, third, three =>
      exact encode_three three (Opens.continues (p := [a]) opens (List.cons_ne_nil _ _)) third
    | [a, x, y], opens, fourth, four =>
      have front : Opens [a, x] := opens.of_prefix (List.prefix_append [a, x] [y])
      exact encode_four four (Opens.continues (p := [a]) front (List.cons_ne_nil _ _))
        (Opens.continues (p := [a, x]) opens (List.cons_ne_nil _ _)) fourth
    | a :: x :: y :: z :: more, opens, _, _ =>
      have short := opens.length_le
      simp only [List.length_cons] at short
      omega
  · by_cases nothing : p = []
    · subst nothing
      rcases start_inv b with ⟨-, started⟩ | ⟨one, started⟩ | ⟨-, started⟩
      · rw [started] at h
        exact absurd (h.symm.trans read) (by simp [flush])
      · rw [started] at h
        have same : charOf [b] = c := by simpa [flush] using h.symm.trans read
        rw [← same]
        exact encode_one one
      · rw [started] at h
        exact absurd (h.symm.trans read) (by simp)
    · rw [flush_of_ne_nil nothing] at h
      exact absurd (h.symm.trans read) (by simp)

/-- Bytes that a character begins with and goes on after. -/
def Unfinished (part : List UInt8) : Prop :=
  ∃ (c : Char) (more : List UInt8), more ≠ [] ∧ String.utf8EncodeChar c = part ++ more

theorem exists_continues (p : List UInt8) : ∃ b, continues p b = true := by
  unfold continues
  split
  · exact ⟨0xA0, by decide⟩
  · exact ⟨0x80, by decide⟩
  · exact ⟨0x90, by decide⟩
  · exact ⟨0x80, by decide⟩
  · exact ⟨0x80, by decide⟩

/-- Open bytes can always be gone on with, up to a character. -/
theorem Opens.unfinished {p : List UInt8} (h : Opens p) : Unfinished p := by
  by_cases nothing : p = []
  · exact ⟨'a', [0x61], List.cons_ne_nil _ _, by rw [nothing]; decide⟩
  · -- induction on the number of bytes that may be missing
    generalize room : 4 - p.length = n
    induction n generalizing p with
    | zero =>
      have short := h.length_le
      omega
    | succ n ih =>
      obtain ⟨b, goesOn⟩ := exists_continues p
      rcases feed_inv p b with ⟨-, -, read⟩ | ⟨-, -, read⟩ | ⟨stops, -⟩
      · have longer := (opens_concat h).mpr read
        have less : 4 - (p ++ [b]).length = n := by
          rw [List.length_append, List.length_singleton]
          omega
        obtain ⟨c, more, -, whole⟩ := ih longer (by simp) less
        exact ⟨c, b :: more, List.cons_ne_nil _ _, by rw [whole, List.append_assoc]; rfl⟩
      · exact ⟨_, [b], List.cons_ne_nil _ _, encode_of_feed h read⟩
      · exact absurd ⟨nothing, goesOn⟩ stops

/-- **What is open is a character that has been begun and not ended,** and nothing else. -/
theorem opens_iff_unfinished {p : List UInt8} : Opens p ↔ Unfinished p := by
  refine ⟨Opens.unfinished, ?_⟩
  rintro ⟨c, more, goesOn, whole⟩
  have read := feedAll_encodeChar c
  rw [whole, feedAll_append] at read
  obtain ⟨yields, closed⟩ := Prod.mk.inj read
  apply opens_of_silent
  by_contra early
  -- the character came before its last bytes, so these yield nothing and stay open
  obtain ⟨first, others, split⟩ := List.exists_cons_of_ne_nil early
  rw [split, List.cons_append] at yields
  have late := feedAll_silent (List.append_eq_nil_iff.mp (List.cons.inj yields).2).2
  rw [late] at closed
  exact goesOn (List.append_eq_nil_iff.mp closed).2

theorem opens_start (b : UInt8) : Opens (start b).2 := by
  rcases start_inv b with ⟨-, read⟩ | ⟨-, read⟩ | ⟨-, read⟩
  · rw [read]
    exact opens_nil
  · rw [read]
    exact opens_nil
  · rw [read]
    exact (opens_concat opens_nil).mpr read

/-- Whatever was read, what is open is open by itself. -/
theorem opens_held (bytes : List UInt8) : Opens (feedAll [] bytes).2 := by
  induction bytes using List.reverseRecOn with
  | nil => exact opens_nil
  | append_singleton front b ih =>
    rw [feedAll_concat]
    dsimp only
    rcases feed_inv (feedAll [] front).2 b with ⟨-, -, read⟩ | ⟨-, -, read⟩ | ⟨-, read⟩
    · rw [read]
      exact (opens_concat ih).mpr read
    · rw [read]
      exact opens_nil
    · rw [read]
      exact opens_start b

/-- A byte that begins a character cannot go on with one. -/
theorem not_continues_of_lead {p : List UInt8} {b : UInt8} (lead : 1 < lengthFrom b) :
    ¬ continues p b = true := by
  intro goesOn
  have tail := tail_of_continues goesOn
  grind [lengthFrom_eq b]

/-- **A character that has been begun is held back as soon as its bytes come last,** whatever was
read before them. -/
theorem held_append {part : List UInt8} (h : Opens part) (something : part ≠ [])
    (front : List UInt8) : (feedAll [] (front ++ part)).2 = part := by
  obtain ⟨b, more, rfl⟩ := List.exists_cons_of_ne_nil something
  have begins : start b = ([], [b]) := by
    have first := (opens_concat opens_nil).mp (h.of_prefix ⟨more, rfl⟩ : Opens ([] ++ [b]))
    rwa [feed_nil] at first
  have anew : (feed (feedAll [] front).2 b).2 = [b] := by
    rcases start_inv b with ⟨-, started⟩ | ⟨-, started⟩ | ⟨lead, -⟩
    · exact absurd (started.symm.trans begins) (by simp)
    · exact absurd (started.symm.trans begins) (by simp)
    · rcases feed_inv (feedAll [] front).2 b with ⟨goesOn, -⟩ | ⟨goesOn, -⟩ | ⟨-, read⟩
      · exact absurd goesOn.2 (not_continues_of_lead lead)
      · exact absurd goesOn.2 (not_continues_of_lead lead)
      · rw [read, begins]
  calc (feedAll [] (front ++ b :: more)).2
      = (feedAll (feed (feedAll [] front).2 b).2 more).2 := by rw [feedAll_append]; rfl
    _ = (feedAll (feed [] b).2 more).2 := by rw [anew, feed_nil, begins]
    _ = b :: more := congrArg Prod.snd h

/-! ## What is shown -/

/-- A part of bytes that is malformed, with what comes after it: no character stands there, and the
part is all that a character begins with, or one byte where none begins with it. -/
structure Malformed (part rest : List UInt8) : Prop where
  /-- No character stands there. -/
  noChar : ∀ c, ¬ String.utf8EncodeChar c <+: part ++ rest
  /-- A character begins with the part, or it is a single byte. -/
  begun : part ≠ [] ∧ Unfinished part ∨ part.length = 1
  /-- No character begins with more of the bytes. -/
  longest : ∀ longer, longer <+: part ++ rest → Unfinished longer → longer.length ≤ part.length

theorem Malformed.ne_nil {part rest : List UInt8} (h : Malformed part rest) : part ≠ [] := by
  rcases h.begun with ⟨something, -⟩ | single
  · exact something
  · rintro rfl
    exact absurd single (by decide)

/-- The text that bytes are shown as: their characters, and a replacement for each malformed
part. -/
inductive ShownAs : List UInt8 → Text → Prop where
  /-- There are no bytes. -/
  | nil : ShownAs [] []
  /-- A character comes first. -/
  | char {bytes : List UInt8} {t : Text} (c : Char) (rest : ShownAs bytes t) :
      ShownAs (String.utf8EncodeChar c ++ bytes) (c :: t)
  /-- A malformed part comes first. -/
  | malformed {part bytes : List UInt8} {t : Text} (first : Malformed part bytes)
      (rest : ShownAs bytes t) : ShownAs (part ++ bytes) (replacement :: t)

/-- What cannot begin with a character begins with a malformed part. -/
theorem exists_malformed {bytes : List UInt8} (something : bytes ≠ [])
    (noChar : ∀ c, ¬ String.utf8EncodeChar c <+: bytes) :
    ∃ part rest, bytes = part ++ rest ∧ Malformed part rest := by
  classical
  let begins (n : Nat) : Prop := Unfinished (bytes.take n)
  have most : ∀ longer, longer <+: bytes → Unfinished longer →
      longer.length ≤ Nat.findGreatest begins bytes.length := by
    intro longer within unfinished
    apply Nat.le_findGreatest within.length_le
    show Unfinished (bytes.take longer.length)
    rwa [← List.prefix_iff_eq_take.mp within]
  have found : begins (Nat.findGreatest begins bytes.length) :=
    Nat.findGreatest_spec (P := begins) (Nat.zero_le _) opens_nil.unfinished
  have within : Nat.findGreatest begins bytes.length ≤ bytes.length := Nat.findGreatest_le _
  generalize Nat.findGreatest begins bytes.length = n at most found within
  rcases Nat.eq_zero_or_pos n with rfl | pos
  · -- no character begins with the first byte
    obtain ⟨b, rest, rfl⟩ := List.exists_cons_of_ne_nil something
    exact ⟨[b], rest, rfl, noChar, .inr rfl, fun longer inside unfinished =>
      Nat.le_trans (most longer inside unfinished) (Nat.zero_le _)⟩
  · refine ⟨bytes.take n, bytes.drop n, (List.take_append_drop n bytes).symm, ?_, .inl ⟨?_, found⟩, ?_⟩
    · rwa [List.take_append_drop]
    · intro none
      have := congrArg List.length none
      rw [List.length_take_of_le within] at this
      exact absurd this (by simp; omega)
    · rw [List.take_append_drop, List.length_take_of_le within]
      exact most

theorem utf8EncodeChar_ne_nil (c : Char) : String.utf8EncodeChar c ≠ [] := by
  intro none
  have read := feedAll_encodeChar c
  rw [none] at read
  exact absurd (congrArg Prod.fst read) (by simp [feedAll])

/-- **All bytes are shown as something.** -/
theorem exists_shownAs (bytes : List UInt8) : ∃ t, ShownAs bytes t := by
  induction h : bytes.length using Nat.strongRecOn generalizing bytes with
  | ind n ih =>
    by_cases nothing : bytes = []
    · exact ⟨[], nothing ▸ .nil⟩
    by_cases first : ∃ c, String.utf8EncodeChar c <+: bytes
    · obtain ⟨c, rest, rfl⟩ := first
      have shorter : rest.length < n := by
        have := List.length_pos_iff.mpr (utf8EncodeChar_ne_nil c)
        rw [← h, List.length_append]
        omega
      obtain ⟨t, shown⟩ := ih _ shorter rest rfl
      exact ⟨c :: t, .char c shown⟩
    · obtain ⟨part, rest, rfl, malformed⟩ :=
        exists_malformed nothing fun c inside => first ⟨c, inside⟩
      have shorter : rest.length < n := by
        have : part ≠ [] := malformed.ne_nil
        have := List.length_pos_iff.mpr this
        rw [← h, List.length_append]
        omega
      obtain ⟨t, shown⟩ := ih _ shorter rest rfl
      exact ⟨replacement :: t, .malformed malformed shown⟩

/-! ## What the decoder shows -/

/-- **A malformed part is given up as one, and what comes after it is read anew,** unless it is cut off
by the end of the bytes. -/
theorem feedAll_of_malformed {part bytes : List UInt8} (h : Malformed part bytes)
    (ends : ¬ Unfinished (part ++ bytes)) :
    feedAll [] (part ++ bytes) = (.malformed :: (feedAll [] bytes).1, (feedAll [] bytes).2) := by
  have noChar {b : UInt8} {c : Char} {front more : List UInt8} (opens : Opens front)
      (whole : part ++ bytes = front ++ b :: more) : feed front b ≠ ([.char c], []) := by
    intro read
    apply h.noChar c
    rw [encode_of_feed opens read, whole]
    exact ⟨more, by rw [List.append_assoc]; rfl⟩
  by_cases opens : Opens part
  · cases bytes with
    | nil =>
      rw [List.append_nil] at ends
      exact absurd opens.unfinished ends
    | cons b more =>
      rcases feed_inv part b with ⟨-, -, read⟩ | ⟨-, -, read⟩ | ⟨-, read⟩
      · have longer := ((opens_concat opens).mpr read).unfinished
        have short := h.longest _ ⟨more, by rw [List.append_assoc]; rfl⟩ longer
        rw [List.length_append, List.length_singleton] at short
        omega
      · exact absurd read (noChar opens rfl)
      · rw [feedAll_append, opens, feedAll, feedAll, read, feed_nil, flush_of_ne_nil h.ne_nil]
        rfl
  · -- no character begins with the part, so it is a single byte
    have single : part.length = 1 := by
      rcases h.begun with ⟨-, unfinished⟩ | single
      · exact absurd (opens_iff_unfinished.mpr unfinished) opens
      · exact single
    obtain ⟨b, rfl⟩ := List.length_eq_one_iff.mp single
    rcases start_inv b with ⟨-, read⟩ | ⟨-, read⟩ | ⟨-, read⟩
    · rw [feedAll_append, feedAll, feed_nil, read]
      rfl
    · exact absurd read (feed_nil b ▸ noChar (c := charOf [b]) opens_nil rfl)
    · exact absurd ((opens_concat opens_nil).mpr read) opens

/-- **A malformed part is replaced,** and what comes after it is read anew. -/
theorem decodeLossy_of_malformed {part bytes : List UInt8} (h : Malformed part bytes) :
    decodeLossy (part ++ bytes) = replacement :: decodeLossy bytes := by
  by_cases ends : Unfinished (part ++ bytes)
  · -- nothing comes after it
    have short := h.longest _ List.prefix_rfl ends
    rw [List.length_append] at short
    obtain rfl : bytes = [] := List.length_eq_zero_iff.mp (by omega)
    rw [List.append_nil] at ends ⊢
    have opens : feedAll [] part = ([], part) := opens_iff_unfinished.mpr ends
    rw [decodeLossy, opens]
    dsimp only
    rw [flush_of_ne_nil h.ne_nil]
    rfl
  · rw [decodeLossy, feedAll_of_malformed h ends]
    rfl

theorem ShownAs.eq_decodeLossy {bytes : List UInt8} {t : Text} (h : ShownAs bytes t) :
    t = decodeLossy bytes := by
  induction h with
  | nil => rfl
  | char c rest ih => rw [← encode_singleton, decodeLossy_encode_append, ih, List.singleton_append]
  | malformed first rest ih => rw [decodeLossy_of_malformed first, ih]

/-- **Bytes are shown as one text,** which is the one that decoding them as a whole gives. -/
theorem shownAs_iff {bytes : List UInt8} {t : Text} : ShownAs bytes t ↔ t = decodeLossy bytes := by
  refine ⟨ShownAs.eq_decodeLossy, ?_⟩
  rintro rfl
  obtain ⟨t, shown⟩ := exists_shownAs bytes
  rwa [← shown.eq_decodeLossy]

end DoRunner.Utf8
