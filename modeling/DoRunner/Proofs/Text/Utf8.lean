import DoRunner.Text.Utf8

/-!
# Text survives being written and read

The bytes of a text, read from a state with nothing open, give the text back and leave nothing open.
It is enough to say so for one character, since the machine reads bytes one after another
(`feedAll_append`); and a character has one to four bytes, each case with a lead byte that announces
the number and tail bytes that may follow it.
-/

namespace DoRunner.Utf8

/-! ## Single bytes -/

theorem toNat_ofNat {n : Nat} (h : n < 256) : (UInt8.ofNat n).toNat = n := by
  rw [UInt8.toNat_ofNat']
  omega

theorem lengthFrom_ofNat {n : Nat} (h : n < 256) :
    lengthFrom (UInt8.ofNat n) =
      if n < 0x80 then 1 else if n < 0xC2 then 0 else if n < 0xE0 then 2
      else if n < 0xF0 then 3 else if n < 0xF5 then 4 else 0 := by
  unfold lengthFrom
  simp only [UInt8.lt_iff_toNat_lt, toNat_ofNat h]
  rfl

/-- Which tails may follow a lead. -/
theorem continues_ofNat (lead tail : Nat) (hl : lead < 256) (ht : tail < 256)
    (least : 0x80 ≤ tail) (most : tail ≤ 0xBF) (e0 : lead = 0xE0 → 0xA0 ≤ tail)
    (ed : lead = 0xED → tail ≤ 0x9F) (f0 : lead = 0xF0 → 0x90 ≤ tail)
    (f4 : lead = 0xF4 → tail ≤ 0x8F) :
    continues [UInt8.ofNat lead] (UInt8.ofNat tail) = true := by
  have same : ∀ k : UInt8, [UInt8.ofNat lead] = [k] → lead = k.toNat := by
    intro k h
    rw [← (List.cons.inj h).1, toNat_ofNat hl]
  unfold continues
  split
  · rename_i h
    have := e0 (same _ h)
    simp only [Bool.and_eq_true, decide_eq_true_eq, UInt8.le_iff_toNat_le, toNat_ofNat ht]
    exact ⟨this, most⟩
  · rename_i h
    have := ed (same _ h)
    simp only [Bool.and_eq_true, decide_eq_true_eq, UInt8.le_iff_toNat_le, toNat_ofNat ht]
    exact ⟨least, this⟩
  · rename_i h
    have := f0 (same _ h)
    simp only [Bool.and_eq_true, decide_eq_true_eq, UInt8.le_iff_toNat_le, toNat_ofNat ht]
    exact ⟨this, most⟩
  · rename_i h
    have := f4 (same _ h)
    simp only [Bool.and_eq_true, decide_eq_true_eq, UInt8.le_iff_toNat_le, toNat_ofNat ht]
    exact ⟨least, this⟩
  · simp only [Bool.and_eq_true, decide_eq_true_eq, UInt8.le_iff_toNat_le, toNat_ofNat ht]
    exact ⟨least, most⟩

/-- After the second byte, any tail may follow. -/
theorem continues_later {a b : UInt8} (begun : List UInt8) {tail : Nat} (least : 0x80 ≤ tail)
    (most : tail ≤ 0xBF) : continues (a :: b :: begun) (UInt8.ofNat tail) = true := by
  unfold continues
  split
  · rename_i h
    exact absurd h (by simp)
  · rename_i h
    exact absurd h (by simp)
  · rename_i h
    exact absurd h (by simp)
  · rename_i h
    exact absurd h (by simp)
  · simp only [Bool.and_eq_true, decide_eq_true_eq, UInt8.le_iff_toNat_le,
      toNat_ofNat (show tail < 256 by omega)]
    exact ⟨least, most⟩

/-- How many bits a lead contributes. -/
theorem leadBits_eq {a : UInt8} {k : Nat} (h : lengthFrom a = k) :
    leadBits a = if k = 2 then a.toNat % 32 else if k = 3 then a.toNat % 16
      else if k = 4 then a.toNat % 8 else a.toNat := by
  rw [leadBits, h]
  split
  · rfl
  · rfl
  · rfl
  · rename_i h2 h3 h4
    rw [if_neg h2, if_neg h3, if_neg h4]

/-! ## Whole characters -/

/-- A lead that announces more bytes stays open. -/
theorem feed_lead {a : UInt8} (h : 1 < lengthFrom a) : feed [] a = ([], [a]) := by
  rw [feed, if_pos rfl, start]
  split
  · omega
  · omega
  · rfl

theorem feed_more {begun : List UInt8} {b : UInt8} (hne : begun ≠ []) (hc : continues begun b = true)
    (h : begun.length + 1 < lengthFrom (begun.headD 0)) : feed begun b = ([], begun ++ [b]) := by
  rw [feed, if_neg hne, if_pos hc]
  dsimp only
  rw [expectedLength_concat hne, expectedLength, List.length_append, List.length_singleton, if_pos h]

/-- The last byte that was announced completes the character. -/
theorem feed_last {begun : List UInt8} {b : UInt8} (hne : begun ≠ []) (hc : continues begun b = true)
    (h : lengthFrom (begun.headD 0) = begun.length + 1) :
    feed begun b = ([.char (charOf (begun ++ [b]))], []) := by
  rw [feed, if_neg hne, if_pos hc]
  dsimp only
  rw [expectedLength_concat hne, expectedLength, List.length_append, List.length_singleton, if_neg (by omega)]

theorem feedAll_one {a : UInt8} (ha : lengthFrom a = 1) :
    feedAll [] [a] = ([.char (charOf [a])], []) := by
  have first : feed [] a = ([.char (charOf [a])], []) := by
    rw [feed, if_pos rfl, start, ha]
    rfl
  simp [feedAll, first]

theorem feedAll_two {a b : UInt8} (ha : lengthFrom a = 2) (hb : continues [a] b = true) :
    feedAll [] [a, b] = ([.char (charOf [a, b])], []) := by
  have first := feed_lead (a := a) (by omega)
  have last := feed_last (List.cons_ne_nil a []) hb ha
  simp [feedAll, first, last]

theorem feedAll_three {a b c : UInt8} (ha : lengthFrom a = 3) (hb : continues [a] b = true)
    (hc : continues [a, b] c = true) : feedAll [] [a, b, c] = ([.char (charOf [a, b, c])], []) := by
  have first := feed_lead (a := a) (by omega)
  have second := feed_more (List.cons_ne_nil a []) hb
    (show 2 < lengthFrom a by omega)
  have last := feed_last (List.cons_ne_nil a [b]) hc ha
  simp [feedAll, first, second, last]

theorem feedAll_four {a b c d : UInt8} (ha : lengthFrom a = 4) (hb : continues [a] b = true)
    (hc : continues [a, b] c = true) (hd : continues [a, b, c] d = true) :
    feedAll [] [a, b, c, d] = ([.char (charOf [a, b, c, d])], []) := by
  have first := feed_lead (a := a) (by omega)
  have second := feed_more (List.cons_ne_nil a []) hb
    (show 2 < lengthFrom a by omega)
  have third := feed_more (List.cons_ne_nil a [b]) hc
    (show 3 < lengthFrom a by omega)
  have last := feed_last (List.cons_ne_nil a [b, c]) hd ha
  simp [feedAll, first, second, third, last]

/-- **The bytes of a character are read as the character.** -/
theorem feedAll_encodeChar (c : Char) :
    feedAll [] (String.utf8EncodeChar c) = ([.char c], []) := by
  have valid : c.toNat < 0xD800 ∨ 0xDFFF < c.toNat ∧ c.toNat < 0x110000 := c.valid
  have back : Char.ofNat c.toNat = c := Char.ofNat_toNat c
  unfold String.utf8EncodeChar
  generalize hv : c.val.toNat = v
  have hv' : c.toNat = v := hv
  rw [hv'] at valid back
  dsimp only
  split
  · have ha : lengthFrom (UInt8.ofNat v) = 1 := by
      rw [lengthFrom_ofNat (by omega), if_pos (by omega)]
    have spelled : charOf [UInt8.ofNat v] = c := by
      rw [charOf, leadBits_eq ha, List.foldl_nil, toNat_ofNat (by omega), ← back]
      rfl
    rw [feedAll_one ha, spelled]
  · split
    · have ha : lengthFrom (UInt8.ofNat (v / 64 % 0x20 + 0xC0)) = 2 := by
        rw [lengthFrom_ofNat (by omega), if_neg (by omega), if_neg (by omega), if_pos (by omega)]
      have hb := continues_ofNat (v / 64 % 0x20 + 0xC0) (v % 0x40 + 0x80)
        (by omega) (by omega) (by omega) (by omega) (by omega) (by omega) (by omega) (by omega)
      have spelled : charOf [UInt8.ofNat (v / 64 % 0x20 + 0xC0), UInt8.ofNat (v % 0x40 + 0x80)]
          = c := by
        rw [charOf, leadBits_eq ha, if_pos rfl, ← back]
        dsimp only [List.foldl_cons, List.foldl_nil]
        rw [toNat_ofNat (by omega), toNat_ofNat (by omega)]
        congr 1
        omega
      rw [feedAll_two ha hb, spelled]
    · split
      · have ha : lengthFrom (UInt8.ofNat (v / 4096 % 0x10 + 0xE0)) = 3 := by
          rw [lengthFrom_ofNat (by omega), if_neg (by omega), if_neg (by omega),
            if_neg (by omega), if_pos (by omega)]
        have hb := continues_ofNat (v / 4096 % 0x10 + 0xE0) (v / 64 % 0x40 + 0x80)
          (by omega) (by omega) (by omega) (by omega) (by omega) (by omega) (by omega) (by omega)
        have spelled : charOf [UInt8.ofNat (v / 4096 % 0x10 + 0xE0),
            UInt8.ofNat (v / 64 % 0x40 + 0x80), UInt8.ofNat (v % 0x40 + 0x80)] = c := by
          rw [charOf, leadBits_eq ha, if_neg (by decide), if_pos rfl, ← back]
          dsimp only [List.foldl_cons, List.foldl_nil]
          rw [toNat_ofNat (by omega), toNat_ofNat (by omega), toNat_ofNat (by omega)]
          congr 1
          omega
        rw [feedAll_three ha hb (continues_later [] (by omega) (by omega)), spelled]
      · have ha : lengthFrom (UInt8.ofNat (v / 262144 % 0x08 + 0xF0)) = 4 := by
          rw [lengthFrom_ofNat (by omega), if_neg (by omega), if_neg (by omega),
            if_neg (by omega), if_neg (by omega), if_pos (by omega)]
        have hb := continues_ofNat (v / 262144 % 0x08 + 0xF0) (v / 4096 % 0x40 + 0x80)
          (by omega) (by omega) (by omega) (by omega) (by omega) (by omega) (by omega) (by omega)
        have spelled : charOf [UInt8.ofNat (v / 262144 % 0x08 + 0xF0),
            UInt8.ofNat (v / 4096 % 0x40 + 0x80), UInt8.ofNat (v / 64 % 0x40 + 0x80),
            UInt8.ofNat (v % 0x40 + 0x80)] = c := by
          rw [charOf, leadBits_eq ha, if_neg (by decide), if_neg (by decide), if_pos rfl, ← back]
          dsimp only [List.foldl_cons, List.foldl_nil]
          rw [toNat_ofNat (by omega), toNat_ofNat (by omega), toNat_ofNat (by omega),
            toNat_ofNat (by omega)]
          congr 1
          omega
        rw [feedAll_four ha hb (continues_later [] (by omega) (by omega))
          (continues_later [_] (by omega) (by omega)), spelled]

theorem encode_singleton (c : Char) : encode [c] = String.utf8EncodeChar c := List.append_nil _

/-- **The bytes of a text are read as the text,** and nothing is left open. -/
theorem feedAll_encode_append (t : Text) (bytes : List UInt8) :
    feedAll [] (encode t ++ bytes) = (t.map .char ++ (feedAll [] bytes).1, (feedAll [] bytes).2) := by
  induction t with
  | nil => rfl
  | cons c t ih =>
    rw [encode, List.flatMap_cons, ← encode, List.append_assoc, feedAll_append, feedAll_encodeChar, ih]
    rfl

theorem feedAll_encode (t : Text) : feedAll [] (encode t) = (t.map .char, []) := by
  have read := feedAll_encode_append t []
  rwa [List.append_nil, feedAll, List.append_nil] at read

theorem map_shown_char (t : Text) : (t.map Decoded.char).map Decoded.shown = t := by
  rw [List.map_map]
  exact List.map_id t

theorem decodeLossy_encode_append (t : Text) (bytes : List UInt8) :
    decodeLossy (encode t ++ bytes) = t ++ decodeLossy bytes := by
  unfold decodeLossy
  rw [feedAll_encode_append]
  dsimp only
  rw [List.append_assoc, List.map_append, map_shown_char]

end DoRunner.Utf8
