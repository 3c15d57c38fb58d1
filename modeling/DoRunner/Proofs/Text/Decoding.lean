import DoRunner.Proofs.Text.Malformed

/-!
# Decoding piece by piece

The decoder reads strictly as far as that gets. Behind a malformed part it begins again, and a
character that the bytes end inside of it holds back. What strict reading finds can be said without
a machine (`Verdict`), and so each round does to the bytes before it what the byte machine does to
them: the loop and the machine show the same and leave the same over (`decodeAvailable_eq`).

The machine looks at one byte at a time, so it cannot tell where one piece ended and the next began.
Hence the decoder cannot either (`Carry.decode_append`): pieces are shown as the whole that they make
up, whatever they are (`Carry.decodeAll_finish`).
-/

namespace DoRunner.Utf8

/-! ## Strict reading -/

/-- What strict reading may find: the text that bytes encode, or how many bytes at the front encode
a text and what stands behind them. -/
inductive Verdict : List UInt8 → Except Utf8Error Text → Prop where
  /-- The bytes encode a text. -/
  | valid (t : Text) : Verdict (encode t) (.ok t)
  /-- The bytes end inside a character. -/
  | cut (t : Text) {part : List UInt8} {e : Utf8Error} (something : part ≠ [])
      (unfinished : Unfinished part) (upTo : e.validUpTo = (encode t).length)
      (length : e.errorLength = none) : Verdict (encode t ++ part) (.error e)
  /-- A malformed part comes first. -/
  | malformed (t : Text) {part rest : List UInt8} {e : Utf8Error} (first : Malformed part rest)
      (ends : ¬ Unfinished (part ++ rest)) (upTo : e.validUpTo = (encode t).length)
      (length : e.errorLength = some part.length) : Verdict (encode t ++ (part ++ rest)) (.error e)

theorem encode_cons (c : Char) (t : Text) :
    encode (c :: t) = String.utf8EncodeChar c ++ encode t := List.flatMap_cons

theorem Verdict.behindChar {bytes : List UInt8} {result : Except Utf8Error Text}
    (h : Verdict bytes result) (c : Char) :
    Verdict (String.utf8EncodeChar c ++ bytes)
      (behindChar c (String.utf8EncodeChar c).length result) := by
  have size (t : Text) : (String.utf8EncodeChar c).length + (encode t).length
      = (encode (c :: t)).length := by rw [encode_cons, List.length_append]
  cases h with
  | valid t =>
    rw [← encode_cons]
    exact .valid (c :: t)
  | cut t something unfinished upTo length =>
    rw [← List.append_assoc, ← encode_cons]
    exact .cut (c :: t) something unfinished (upTo ▸ size t) length
  | malformed t first ends upTo length =>
    rw [← List.append_assoc, ← encode_cons]
    exact .malformed (c :: t) first ends (upTo ▸ size t) length

/-- A character is read only as the whole of what a byte yields. -/
theorem feed_char {p : List UInt8} {b : UInt8} {c : Char} {more : List Decoded}
    (h : (feed p b).1 = .char c :: more) : feed p b = ([.char c], []) := by
  rcases feed_inv p b with ⟨-, -, read⟩ | ⟨-, -, read⟩ | ⟨-, read⟩
  · rw [read] at h
    exact absurd h (by simp)
  · rw [read] at h ⊢
    rw [(List.cons.inj h).1]
  · by_cases nothing : p = []
    · rw [nothing, feed_nil] at h ⊢
      rcases start_inv b with ⟨-, started⟩ | ⟨-, started⟩ | ⟨-, started⟩
      · rw [started] at h
        exact absurd h (by simp)
      · rw [started] at h ⊢
        rw [(List.cons.inj h).1]
      · rw [started] at h
        exact absurd h (by simp)
    · rw [read, flush_of_ne_nil nothing] at h
      exact absurd h (by simp)

/-- Where a byte makes the open part malformed, no character stands there or goes on beyond it. -/
theorem stops_of_feed {p : List UInt8} (opens : Opens p) {b : UInt8} {read : List Decoded}
    (yields : (feed p b).1 = .malformed :: read) (more : List UInt8) :
    (∀ c, ¬ String.utf8EncodeChar c <+: p ++ b :: more) ∧
      ∀ longer, longer <+: p ++ b :: more → Unfinished longer → longer.length ≤ p.length := by
  have next : p ++ [b] <+: p ++ b :: more := ⟨more, by rw [List.append_assoc]; rfl⟩
  have reaches {q : List UInt8} (within : q <+: p ++ b :: more) (long : p.length < q.length) :
      p ++ [b] <+: q := by
    refine List.prefix_of_prefix_length_le next within ?_
    rwa [List.length_append, List.length_singleton]
  constructor
  · intro c within
    have whole := feedAll_encodeChar c
    rcases Nat.lt_or_ge p.length (String.utf8EncodeChar c).length with long | short
    · obtain ⟨others, split⟩ := reaches within long
      rw [← split, List.append_assoc, feedAll_append, opens, List.singleton_append, feedAll] at whole
      dsimp only at whole
      rw [yields] at whole
      exact absurd (congrArg Prod.fst whole) (by simp)
    · have inside := List.prefix_of_prefix_length_le within (List.prefix_append p _) short
      have silent : feedAll [] (String.utf8EncodeChar c) = ([], _) := Opens.of_prefix opens inside
      rw [silent] at whole
      exact absurd (congrArg Prod.fst whole) (by simp)
  · intro longer within unfinished
    by_contra long
    have goesOn := Opens.of_prefix (opens_iff_unfinished.mpr unfinished)
      (reaches within (Nat.lt_of_not_le long))
    rw [(opens_concat opens).mp goesOn] at yields
    exact absurd yields (by simp)

theorem verdict_checkAfter {p : List UInt8} (opens : Opens p) (bytes : List UInt8) :
    Verdict (p ++ bytes) (checkAfter p bytes) := by
  induction bytes generalizing p with
  | nil =>
    rw [checkAfter, List.append_nil]
    split
    · rename_i nothing
      rw [nothing]
      exact .valid []
    · rename_i something
      exact .cut [] something opens.unfinished rfl rfl
  | cons b bytes ih =>
    rw [checkAfter]
    split
    · rename_i begun read
      have silent := feed_silent (congrArg Prod.fst read)
      rw [silent] at read
      obtain rfl : p ++ [b] = begun := congrArg Prod.snd read
      have goesOn := ih ((opens_concat opens).mpr silent)
      rwa [List.append_assoc] at goesOn
    · rename_i c others rest read
      have whole := encode_of_feed opens (feed_char (congrArg Prod.fst read))
      have behind := (ih opens_nil).behindChar c
      rw [whole, List.length_append, List.length_singleton, List.append_assoc] at behind
      exact behind
    · rename_i others rest read
      obtain ⟨noChar, most⟩ := stops_of_feed opens (congrArg Prod.fst read) bytes
      have ends : ¬ Unfinished (p ++ b :: bytes) := by
        intro unfinished
        have short := most _ List.prefix_rfl unfinished
        rw [List.length_append, List.length_cons] at short
        omega
      by_cases nothing : p = []
      · subst nothing
        have single : Malformed [b] bytes := ⟨noChar, .inr rfl, fun longer within unfinished =>
          Nat.le_succ_of_le (most longer within unfinished)⟩
        exact .malformed [] single ends rfl rfl
      · have pos := List.length_pos_iff.mpr nothing
        exact .malformed [] ⟨noChar, .inl ⟨nothing, opens.unfinished⟩, most⟩ ends rfl
          (congrArg some (Nat.max_eq_right pos))

/-- **Strict reading finds the text of bytes,** or the first place where they are not UTF-8. -/
theorem verdict_check (bytes : List UInt8) : Verdict bytes (check bytes) :=
  verdict_checkAfter opens_nil bytes

/-! ## The loop -/

theorem decodeLossy_encode (t : Text) : decodeLossy (encode t) = t := by
  have read := decodeLossy_encode_append t []
  rwa [List.append_nil, show decodeLossy [] = [] from rfl, List.append_nil] at read

/-- **The loop does what the byte machine does.** -/
theorem decodeAvailable_eq (bytes : List UInt8) :
    decodeAvailable bytes = ((feedAll [] bytes).1.map Decoded.shown, (feedAll [] bytes).2) := by
  fun_induction decodeAvailable bytes with
  | case1 => rfl
  | case2 bytes something t found =>
    have verdict := found ▸ verdict_check bytes
    cases verdict
    rw [feedAll_encode, map_shown_char]
  | case3 bytes something e found valid noLength =>
    have verdict := found ▸ verdict_check bytes
    cases verdict with
    | cut t _ unfinished upTo _ =>
      have opens : feedAll [] _ = _ := opens_iff_unfinished.mpr unfinished
      rw [feedAll_encode_append, opens]
      dsimp only [valid]
      rw [upTo, List.take_left, List.drop_left, decodeLossy_encode, List.append_nil, map_shown_char]
    | malformed t first ends upTo length => exact absurd (noLength.symm.trans length) (by simp)
  | case4 bytes something e found valid malformed length more rest decoded ih =>
    have verdict := found ▸ verdict_check bytes
    cases verdict with
    | cut t _ _ _ noLength => exact absurd (length.symm.trans noLength) (by simp)
    | @malformed t part rest _ first ends upTo partLength =>
      have size : malformed = part.length := Option.some.inj (length.symm.trans partLength)
      have behind : (encode t ++ (part ++ rest)).drop (e.validUpTo + malformed) = rest := by
        rw [upTo, size, ← List.drop_drop, List.drop_left, List.drop_left]
      rw [decoded, behind] at ih
      obtain ⟨rfl, rfl⟩ := Prod.mk.inj ih
      rw [feedAll_encode_append, feedAll_of_malformed first ends]
      dsimp only [valid]
      rw [upTo, List.take_left, decodeLossy_encode, List.map_append, map_shown_char]
      rfl

/-! ## Pieces -/

namespace Carry

/-- Decoding piece by piece is decoding the whole. -/
theorem decode_append (carry : Carry) (xs ys : List UInt8) :
    carry.decode (xs ++ ys) = ((carry.decode xs).1 ++ ((carry.decode xs).2.decode ys).1,
      ((carry.decode xs).2.decode ys).2) := by
  simp only [decode, feedAll_append, List.map_append]

/-- **The bytes of a text are decoded as the text,** and nothing is held back. -/
theorem decode_encode (t : Text) : empty.decode (encode t) = (t, empty) := by
  rw [decode, empty, feedAll_encode]
  dsimp only
  rw [map_shown_char]

/-- **What a decoder shows from the start** is the text of the bytes that it does not hold back. -/
theorem decode_empty {bytes : List UInt8} {t : Text} {carry : Carry}
    (h : empty.decode bytes = (t, carry)) :
    carry.held.length ≤ 3 ∧ ∃ whole, bytes = whole ++ carry.held ∧ t = decodeLossy whole := by
  obtain ⟨rfl, rfl⟩ := Prod.mk.inj h
  obtain ⟨whole, split, read⟩ := exists_whole bytes
  exact ⟨length_held_le bytes, whole, split, congrArg (List.map Decoded.shown) read⟩

/-- **The decoder is the loop,** as long as it holds back a character that has been begun. -/
theorem decode_eq_decodeByLoop {carry : Carry} (opens : Opens carry.held) (bytes : List UInt8) :
    carry.decode bytes = carry.decodeByLoop bytes := by
  rw [decodeByLoop, decodeAvailable_eq, feedAll_append, opens]
  rfl

/-- What is given up at the end is shown as bytes are as a whole. -/
theorem finish_eq {carry : Carry} (opens : Opens carry.held) :
    carry.finish = (decodeLossy carry.held, empty) := by
  rw [finish, decodeLossy, opens]
  rfl

/-- Decodes pieces one after another: their text, and the decoder behind the last of them. -/
def decodeAll (carry : Carry) : List (List UInt8) → Text × Carry
  | [] => ([], carry)
  | piece :: pieces =>
    let (t, next) := carry.decode piece
    let (more, last) := next.decodeAll pieces
    (t ++ more, last)

/-- Where the pieces end does not matter. -/
theorem decodeAll_eq_decode (carry : Carry) (pieces : List (List UInt8)) :
    carry.decodeAll pieces = carry.decode pieces.flatten := by
  induction pieces generalizing carry with
  | nil => rfl
  | cons piece pieces ih =>
    rw [decodeAll, List.flatten_cons, decode_append]
    dsimp only
    rw [ih]

theorem finish_decode (bytes : List UInt8) :
    (empty.decode bytes).1 ++ (empty.decode bytes).2.finish.1 = decodeLossy bytes :=
  List.map_append.symm

/-- **Pieces are decoded as the whole that they make up.** However bytes are cut into pieces, what
is shown of the pieces and at the end is the one text that the bytes are shown as. After each piece
at most three bytes are held back: the longest end of what was read with which a character begins
and goes on. What has been shown until then is what the bytes before them are shown as, and the loop
shows the same of the next piece and at the end. -/
theorem decodeAll_finish (pieces : List (List UInt8)) :
    (empty.decodeAll pieces).1 ++ (empty.decodeAll pieces).2.finish.1 = decodeLossy pieces.flatten ∧
    (∀ t, ShownAs pieces.flatten t ↔ t = decodeLossy pieces.flatten) ∧
    ∀ n, ∃ whole held,
      empty.decodeAll (pieces.take n) = (decodeLossy whole, ⟨held⟩) ∧
      (pieces.take n).flatten = whole ++ held ∧ held.length ≤ 3 ∧ Unfinished held ∧
      (∀ last, last <:+ (pieces.take n).flatten → Unfinished last → last <:+ held) ∧
      (∀ piece, decode ⟨held⟩ piece = decodeByLoop ⟨held⟩ piece) ∧
      finish ⟨held⟩ = (decodeLossy held, empty) := by
  refine ⟨?_, fun t => shownAs_iff, fun n => ?_⟩
  · rw [decodeAll_eq_decode]
    exact finish_decode pieces.flatten
  · rw [decodeAll_eq_decode]
    generalize (pieces.take n).flatten = bytes
    rcases decoded : empty.decode bytes with ⟨shown, ⟨held⟩⟩
    obtain ⟨short, whole, cut, rfl⟩ := decode_empty decoded
    have same : (feedAll [] bytes).2 = held := congrArg (·.2.held) decoded
    have opens : Opens held := same ▸ opens_held bytes
    refine ⟨whole, held, rfl, cut, short, opens.unfinished, ?_, decode_eq_decodeByLoop opens,
      finish_eq opens⟩
    rintro last ⟨front, rfl⟩ unfinished
    by_cases nothing : last = []
    · exact nothing ▸ List.nil_suffix
    · -- it begins with a byte that is read anew wherever it stands
      have all := held_append (opens_iff_unfinished.mpr unfinished) nothing front
      exact ⟨[], all.symm.trans same⟩

example : empty.decodeAll [[0xF0, 0x9F], [], [0x98, 0x41]] = ([replacement, 'A'], empty) := by decide

end Carry

end DoRunner.Utf8
