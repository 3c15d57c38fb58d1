import Mathlib.Data.List.Induction
import DoRunner.Text.Utf8

/-!
# What stays open

When some bytes have been read from the start, the last of them are open, at most three
(`length_held_le`): fewer than the character takes that they begin. What was read until then is all
that the bytes before those amount to (`exists_whole`).
-/

namespace DoRunner.Utf8

theorem lengthFrom_le (lead : UInt8) : lengthFrom lead ≤ 4 := by
  unfold lengthFrom
  split
  · decide
  · split
    · decide
    · split
      · decide
      · split
        · decide
        · split <;> decide

/-! ## Single bytes -/

/-- What a byte does with nothing open. -/
theorem start_inv (byte : UInt8) :
    lengthFrom byte = 0 ∧ start byte = ([.malformed], []) ∨
      lengthFrom byte = 1 ∧ start byte = ([.char (charOf [byte])], []) ∨
      1 < lengthFrom byte ∧ start byte = ([], [byte]) := by
  unfold start
  split
  · rename_i none
    exact .inl ⟨none, rfl⟩
  · rename_i one
    exact .inr (.inl ⟨one, rfl⟩)
  · rename_i notNone notOne
    have several : lengthFrom byte ≠ 0 ∧ lengthFrom byte ≠ 1 := ⟨notNone, notOne⟩
    exact .inr (.inr ⟨by omega, rfl⟩)

/-- What a byte does: it goes on with what is open, or ends its character, or gives up what is open
and is read with nothing open. -/
theorem feed_inv (openPart : List UInt8) (byte : UInt8) :
    (openPart ≠ [] ∧ continues openPart byte = true) ∧
        openPart.length + 1 < expectedLength openPart ∧
        feed openPart byte = ([], openPart ++ [byte]) ∨
      (openPart ≠ [] ∧ continues openPart byte = true) ∧
        expectedLength openPart ≤ openPart.length + 1 ∧
        feed openPart byte = ([.char (charOf (openPart ++ [byte]))], []) ∨
      ¬ (openPart ≠ [] ∧ continues openPart byte = true) ∧
        feed openPart byte = (flush openPart ++ (start byte).1, (start byte).2) := by
  unfold feed flush
  split
  · rename_i nothing
    exact .inr (.inr ⟨fun goesOn => goesOn.1 nothing, rfl⟩)
  · rename_i something
    split
    · rename_i goesOn
      dsimp only
      rw [expectedLength_concat something, List.length_append, List.length_singleton]
      split
      · rename_i short
        exact .inl ⟨⟨something, goesOn⟩, short, rfl⟩
      · rename_i long
        exact .inr (.inl ⟨⟨something, goesOn⟩, Nat.le_of_not_lt long, rfl⟩)
    · rename_i stops
      exact .inr (.inr ⟨fun goesOn => stops goesOn.2, rfl⟩)

/-- What is open is shorter than the character that it begins. -/
theorem length_feed_lt (openPart : List UInt8) (byte : UInt8) :
    (feed openPart byte).2.length < expectedLength (feed openPart byte).2 := by
  rcases feed_inv openPart byte with ⟨⟨something, -⟩, short, read⟩ | ⟨-, -, read⟩ | ⟨-, read⟩
  · rw [read]
    dsimp only
    rwa [expectedLength_concat something, List.length_append, List.length_singleton]
  · rw [read]
    exact Nat.zero_lt_one
  · rw [read]
    rcases start_inv byte with ⟨-, started⟩ | ⟨-, started⟩ | ⟨several, started⟩
    · rw [started]
      exact Nat.zero_lt_one
    · rw [started]
      exact Nat.zero_lt_one
    · rw [started]
      exact several

/-! ## Many bytes -/

theorem feedAll_concat (openPart bytes : List UInt8) (byte : UInt8) :
    feedAll openPart (bytes ++ [byte]) =
      ((feedAll openPart bytes).1 ++ (feed (feedAll openPart bytes).2 byte).1,
        (feed (feedAll openPart bytes).2 byte).2) := by
  have one (begun : List UInt8) : feedAll begun [byte] = feed begun byte :=
    Prod.ext (List.append_nil _) rfl
  rw [feedAll_append, one]

/-- **At most three bytes are held back.** -/
theorem length_held_le (bytes : List UInt8) : (feedAll [] bytes).2.length ≤ 3 := by
  rcases List.eq_nil_or_concat bytes with rfl | ⟨front, byte, rfl⟩
  · decide
  · rw [List.concat_eq_append, feedAll_concat]
    have short := length_feed_lt (feedAll [] front).2 byte
    have most : expectedLength (feed (feedAll [] front).2 byte).2 ≤ 4 := lengthFrom_le _
    dsimp only
    omega

/-- **What was read is all that the bytes before those held back amount to.** -/
theorem exists_whole (bytes : List UInt8) :
    ∃ whole, bytes = whole ++ (feedAll [] bytes).2 ∧
      (feedAll [] bytes).1 = (feedAll [] whole).1 ++ flush (feedAll [] whole).2 := by
  induction bytes using List.reverseRecOn with
  | nil => exact ⟨[], rfl, rfl⟩
  | append_singleton front byte ih =>
    obtain ⟨whole, split, read⟩ := ih
    rw [feedAll_concat]
    dsimp only
    by_cases closed : (feed (feedAll [] front).2 byte).2 = []
    · refine ⟨front ++ [byte], by rw [closed, List.append_nil], ?_⟩
      rw [feedAll_concat, closed]
      exact (List.append_nil _).symm
    · rcases feed_inv (feedAll [] front).2 byte with ⟨-, -, goesOn⟩ | ⟨-, -, ends⟩ | ⟨-, anew⟩
      · refine ⟨whole, ?_, by rw [goesOn, List.append_nil, read]⟩
        rw [goesOn, ← List.append_assoc, ← split]
      · exact absurd (by rw [ends]) closed
      · rcases start_inv byte with ⟨-, started⟩ | ⟨-, started⟩ | ⟨-, started⟩
        · exact absurd (by rw [anew, started]) closed
        · exact absurd (by rw [anew, started]) closed
        · rw [anew, started]
          exact ⟨front, rfl, by rw [List.append_nil]⟩

end DoRunner.Utf8
