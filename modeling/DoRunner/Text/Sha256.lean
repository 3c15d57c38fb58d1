import DoRunner.Text.Utf8

/-!
# SHA-256

The digest of FIPS 180-4, over lists of bytes. The message is padded to whole blocks of 64 bytes;
each block is expanded to 64 words and mixed into eight working words, one round per word.

The words of the expansion are kept latest first, so that each new word is made from the front of
the list.
-/

namespace DoRunner.Sha256

/-- A word rotated to the right. -/
def rotate (x : UInt32) (n : UInt32) : UInt32 := (x >>> n) ||| (x <<< (32 - n))

/-- The round constants: the first bits of the fractional parts of the cube roots of the first 64
primes. -/
def roundConstants : List UInt32 := [
  0x428a2f98, 0x71374491, 0xb5c0fbcf, 0xe9b5dba5, 0x3956c25b, 0x59f111f1, 0x923f82a4, 0xab1c5ed5,
  0xd807aa98, 0x12835b01, 0x243185be, 0x550c7dc3, 0x72be5d74, 0x80deb1fe, 0x9bdc06a7, 0xc19bf174,
  0xe49b69c1, 0xefbe4786, 0x0fc19dc6, 0x240ca1cc, 0x2de92c6f, 0x4a7484aa, 0x5cb0a9dc, 0x76f988da,
  0x983e5152, 0xa831c66d, 0xb00327c8, 0xbf597fc7, 0xc6e00bf3, 0xd5a79147, 0x06ca6351, 0x14292967,
  0x27b70a85, 0x2e1b2138, 0x4d2c6dfc, 0x53380d13, 0x650a7354, 0x766a0abb, 0x81c2c92e, 0x92722c85,
  0xa2bfe8a1, 0xa81a664b, 0xc24b8b70, 0xc76c51a3, 0xd192e819, 0xd6990624, 0xf40e3585, 0x106aa070,
  0x19a4c116, 0x1e376c08, 0x2748774c, 0x34b0bcb5, 0x391c0cb3, 0x4ed8aa4a, 0x5b9cca4f, 0x682e6ff3,
  0x748f82ee, 0x78a5636f, 0x84c87814, 0x8cc70208, 0x90befffa, 0xa4506ceb, 0xbef9a3f7, 0xc67178f2]

/-- The eight working words. -/
structure Words where
  (a b c d e f g h : UInt32)
deriving DecidableEq, Repr

/-- The working words before the first block: the first bits of the fractional parts of the square
roots of the first eight primes. -/
def Words.initial : Words :=
  ⟨0x6a09e667, 0xbb67ae85, 0x3c6ef372, 0xa54ff53a, 0x510e527f, 0x9b05688c, 0x1f83d9ab, 0x5be0cd19⟩

/-- The eight words added one by one. -/
def Words.add (x y : Words) : Words :=
  ⟨x.a + y.a, x.b + y.b, x.c + y.c, x.d + y.d, x.e + y.e, x.f + y.f, x.g + y.g, x.h + y.h⟩

/-- One round with its constant and its word of the expanded block. -/
def round (s : Words) (constant word : UInt32) : Words :=
  let mixE := rotate s.e 6 ^^^ rotate s.e 11 ^^^ rotate s.e 25
  let choice := (s.e &&& s.f) ^^^ (~~~s.e &&& s.g)
  let t := s.h + mixE + choice + constant + word
  let mixA := rotate s.a 2 ^^^ rotate s.a 13 ^^^ rotate s.a 22
  let majority := (s.a &&& s.b) ^^^ (s.a &&& s.c) ^^^ (s.b &&& s.c)
  ⟨t + (mixA + majority), s.a, s.b, s.c, s.d + t, s.e, s.f, s.g⟩

/-- Four bytes at a time as words, the first byte the highest. -/
def words : List UInt8 → List UInt32
  | b :: c :: d :: e :: more =>
    (b.toUInt32 <<< 24 ||| c.toUInt32 <<< 16 ||| d.toUInt32 <<< 8 ||| e.toUInt32) :: words more
  | _ => []

/-- The expansion of a block with `n` more words. Words are listed latest first. -/
def expand : Nat → List UInt32 → List UInt32
  | 0, w => w
  | n + 1, w =>
    let x := w.getD 14 0
    let y := w.getD 1 0
    let lower := rotate x 7 ^^^ rotate x 18 ^^^ (x >>> 3)
    let upper := rotate y 17 ^^^ rotate y 19 ^^^ (y >>> 10)
    expand n ((w.getD 15 0 + lower + w.getD 6 0 + upper) :: w)

/-- The working words after a block of 64 bytes. -/
def compress (s : Words) (block : List UInt8) : Words :=
  let schedule := (expand 48 (words block).reverse).reverse
  s.add ((roundConstants.zip schedule).foldl (fun s kw => round s kw.1 kw.2) s)

/-- The eight bytes of a number, the highest first. -/
def bigEndian64 (n : Nat) : List UInt8 :=
  [56, 48, 40, 32, 24, 16, 8, 0].map fun shift => (n >>> shift).toUInt8

/-- A message with a one bit, zero bits and its length in bits, so that blocks come out even. -/
def pad (message : List UInt8) : List UInt8 :=
  let zeros := (119 - message.length % 64) % 64
  message ++ 0x80 :: List.replicate zeros 0 ++ bigEndian64 (8 * message.length)

/-- The working words after all blocks of a padded message. -/
def absorb (s : Words) (padded : List UInt8) : Words :=
  if padded = [] then s
  else absorb (compress s (padded.take 64)) (padded.drop 64)
termination_by padded.length
decreasing_by
  have := List.length_pos_iff.2 (by assumption)
  simp; omega

/-- A word as eight hexadecimal digits. -/
def hexWord (x : UInt32) : Text :=
  [28, 24, 20, 16, 12, 8, 4, 0].map fun shift => Nat.digitChar ((x.toNat >>> shift) % 16)

/-- The digest of a message as 64 hexadecimal digits. -/
def hexDigest (message : List UInt8) : Text :=
  let s := absorb .initial (pad message)
  [s.a, s.b, s.c, s.d, s.e, s.f, s.g, s.h].flatMap hexWord

/-- The digest of a text in UTF-8. -/
def ofText (t : Text) : Text := hexDigest (Utf8.encode t)

/-- Every digest has 64 digits. -/
theorem length_hexDigest (message : List UInt8) : (hexDigest message).length = 64 := by
  simp [hexDigest, hexWord]

end DoRunner.Sha256
