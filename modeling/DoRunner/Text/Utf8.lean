import DoRunner.Text.Basic

/-!
# UTF-8, read piece by piece

Bytes arrive in pieces that may end inside a character. The decoder is a machine over single bytes
whose state is the **open** part: bytes that begin a character and do not end it. A byte that can
go on with the open part extends or completes it. A byte that cannot makes the open part malformed,
and is then read with nothing open. Each malformed part counts once, however many bytes it has.

Bytes can be read as a whole, with malformed parts replaced (`decodeLossy`) or refused (`check`), or
piece by piece (`Carry`). Since the machine looks at one byte at a time, it cannot tell where one
piece ended and the next began. The decoder can also be written as a loop that reads strictly as far
as that gets, replaces what is malformed there, and goes on behind it (`Carry.decodeByLoop`).
-/

namespace DoRunner.Utf8

/-- The number of bytes of the character that starts with the given byte, if one does. -/
def lengthFrom (lead : UInt8) : Nat :=
  if lead < 0x80 then 1
  else if lead < 0xC2 then 0
  else if lead < 0xE0 then 2
  else if lead < 0xF0 then 3
  else if lead < 0xF5 then 4
  else 0

/-- Whether `byte` may follow the bytes that a character has begun with. The second byte is further
restricted after four leads: so that no character has two spellings, that surrogates have none, and
that code points end where they end. -/
def continues (begun : List UInt8) (byte : UInt8) : Bool :=
  match begun with
  | [0xE0] => 0xA0 ≤ byte && byte ≤ 0xBF
  | [0xED] => 0x80 ≤ byte && byte ≤ 0x9F
  | [0xF0] => 0x90 ≤ byte && byte ≤ 0xBF
  | [0xF4] => 0x80 ≤ byte && byte ≤ 0x8F
  | _ => 0x80 ≤ byte && byte ≤ 0xBF

/-- The number of bytes of the character that `begun` begins. -/
def expectedLength (begun : List UInt8) : Nat := lengthFrom (begun.headD 0)

theorem expectedLength_concat {begun : List UInt8} (something : begun ≠ []) (byte : UInt8) :
    expectedLength (begun ++ [byte]) = expectedLength begun := by
  cases begun with
  | nil => exact absurd rfl something
  | cons lead more => rfl

/-- The bits that the first byte of a character contributes to its code point. -/
def leadBits (lead : UInt8) : Nat :=
  match lengthFrom lead with
  | 2 => lead.toNat % 32
  | 3 => lead.toNat % 16
  | 4 => lead.toNat % 8
  | _ => lead.toNat

/-- The character that the bytes of one character spell. -/
def charOf (bytes : List UInt8) : Char :=
  match bytes with
  | [] => Char.ofNat 0
  | lead :: more => Char.ofNat (more.foldl (fun n b => 64 * n + b.toNat % 64) (leadBits lead))

/-- What reading yields: a character, or a malformed part. -/
inductive Decoded where
  /-- A character. -/
  | char (c : Char)
  /-- Bytes that begin no character, or begin one that does not go on. -/
  | malformed
deriving DecidableEq, Repr

/-- The character that stands in for a malformed part. -/
def replacement : Char := '\uFFFD'

/-- What is shown for what was read. -/
def Decoded.shown : Decoded → Char
  | .char c => c
  | .malformed => replacement

/-- Reads a byte with nothing open: what it yields and what is then open. -/
def start (byte : UInt8) : List Decoded × List UInt8 :=
  match lengthFrom byte with
  | 0 => ([.malformed], [])
  | 1 => ([.char (charOf [byte])], [])
  | _ => ([], [byte])

/-- Reads a byte after the open part: what it yields and what is then open. -/
def feed (openPart : List UInt8) (byte : UInt8) : List Decoded × List UInt8 :=
  if openPart = [] then start byte
  else if continues openPart byte then
    let begun := openPart ++ [byte]
    if begun.length < expectedLength begun then ([], begun) else ([.char (charOf begun)], [])
  else
    let (read, begun) := start byte
    (.malformed :: read, begun)

/-- Reads bytes one after another. -/
def feedAll : List UInt8 → List UInt8 → List Decoded × List UInt8
  | openPart, [] => ([], openPart)
  | openPart, byte :: bytes =>
    let (read, begun) := feed openPart byte
    let (more, last) := feedAll begun bytes
    (read ++ more, last)

/-- What an open part yields when nothing comes after it. -/
def flush (openPart : List UInt8) : List Decoded := if openPart = [] then [] else [.malformed]

/-- Reading two pieces is reading them as one. -/
theorem feedAll_append (openPart xs ys : List UInt8) :
    feedAll openPart (xs ++ ys) =
      ((feedAll openPart xs).1 ++ (feedAll (feedAll openPart xs).2 ys).1,
        (feedAll (feedAll openPart xs).2 ys).2) := by
  induction xs generalizing openPart with
  | nil => simp [feedAll]
  | cons x xs ih => simp [feedAll, ih]

/-! ## As a whole -/

/-- The text of bytes, with malformed parts shown as the replacement character. -/
def decodeLossy (bytes : List UInt8) : Text :=
  let (read, openPart) := feedAll [] bytes
  (read ++ flush openPart).map Decoded.shown

/-- Where bytes are not UTF-8. -/
structure Utf8Error where
  /-- The number of bytes before that are. -/
  validUpTo : Nat
  /-- The number of bytes of the malformed part there. None when it is a character that the bytes end
  inside of. -/
  errorLength : Option Nat
  /-- A malformed part has bytes. -/
  errorLength_pos : ∀ n ∈ errorLength, 0 < n
deriving DecidableEq, Repr

/-- What is found of a character of some bytes with more behind it, from what is found of that. -/
def behindChar (c : Char) (size : Nat) : Except Utf8Error Text → Except Utf8Error Text
  | .ok t => .ok (c :: t)
  | .error e => .error { e with validUpTo := size + e.validUpTo }

/-- Reads bytes strictly after the open part. -/
def checkAfter : List UInt8 → List UInt8 → Except Utf8Error Text
  | openPart, [] => if openPart = [] then .ok [] else .error ⟨0, none, nofun⟩
  | openPart, byte :: bytes =>
    match feed openPart byte with
    | ([], begun) => checkAfter begun bytes
    | (.char c :: _, _) => behindChar c (openPart.length + 1) (checkAfter [] bytes)
    | (.malformed :: _, _) =>
      .error ⟨0, some (max 1 openPart.length), fun _ h => Option.some.inj h ▸ Nat.le_max_left 1 _⟩

/-- The text of bytes without a malformed part, or the first place where there is one. -/
def check (bytes : List UInt8) : Except Utf8Error Text := checkAfter [] bytes

/-- The text of bytes without a malformed part. -/
def decode? (bytes : List UInt8) : Option Text := (check bytes).toOption

/-- The bytes of a text. -/
def encode (t : Text) : List UInt8 := t.flatMap String.utf8EncodeChar

/-! ## Piece by piece -/

/-- Decodes bytes by reading strictly, again and again behind each malformed part, up to a character
that they end inside of: the text, and the bytes of that character. -/
def decodeAvailable (bytes : List UInt8) : Text × List UInt8 :=
  if _ : bytes = [] then ([], [])
  else
    match check bytes with
    | .ok t => (t, [])
    | .error e =>
      let valid := decodeLossy (bytes.take e.validUpTo)
      match _ : e.errorLength with
      | none => (valid, bytes.drop e.validUpTo)
      | some malformed =>
        let (more, rest) := decodeAvailable (bytes.drop (e.validUpTo + malformed))
        (valid ++ replacement :: more, rest)
termination_by bytes.length
decreasing_by
  have something := List.length_pos_iff.mpr ‹bytes ≠ []›
  have skipped := e.errorLength_pos malformed ‹e.errorLength = some malformed›
  rw [List.length_drop]
  omega

/-- A decoder of text that arrives in pieces. -/
structure Carry where
  /-- The bytes held back until their character is complete. -/
  held : List UInt8
deriving DecidableEq, Repr

namespace Carry

/-- A decoder that holds nothing back. -/
def empty : Carry := ⟨[]⟩

/-- Decodes a piece after what was held back. Malformed parts are shown as the replacement
character. -/
def decode (carry : Carry) (bytes : List UInt8) : Text × Carry :=
  let (read, openPart) := feedAll carry.held bytes
  (read.map Decoded.shown, ⟨openPart⟩)

/-- Gives up what is held back. -/
def finish (carry : Carry) : Text × Carry := ((flush carry.held).map Decoded.shown, empty)

/-- Decodes a piece as the loop does, over what was held back and what is new. -/
def decodeByLoop (carry : Carry) (bytes : List UInt8) : Text × Carry :=
  let (text, held) := decodeAvailable (carry.held ++ bytes)
  (text, ⟨held⟩)

end Carry

end DoRunner.Utf8
