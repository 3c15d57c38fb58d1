import DoRunner.Text.CharClass

/-!
# Text as a list of characters

Everything this library reads or writes is a `Text`, a list of characters: scanning, matching and
cutting are then recursion on the data. What is a `String` at the edges is converted there once.

Lines are what lies between line feeds. `Text.lines` and `Text.unlines` undo each other, so a text
may be taken apart into lines and put together again without loss; a text that ends in a line feed
has an empty last line.
-/

namespace DoRunner

/-- A text: its characters in order. -/
abbrev Text := List Char

namespace Text

/-! ## Cutting at the ends -/

/-- The text without its leading blanks. -/
def trimStart (t : Text) : Text := t.dropWhile isBlank

/-- The longest beginning of `t` whose last character `p` does not hold of. -/
def trimEndWhile (p : Char → Bool) (t : Text) : Text := (t.reverse.dropWhile p).reverse

/-- The text without its trailing blanks. -/
def trimEnd (t : Text) : Text := trimEndWhile isBlank t

/-- The text without blanks at either end. -/
def trim (t : Text) : Text := trimEnd (trimStart t)

/-- Whether nothing but blanks is in the text. -/
def blank (t : Text) : Bool := t.all isBlank

/-- What follows `beginning` in `t`, if `t` begins with it. -/
def after? : Text → Text → Option Text
  | [], t => some t
  | _ :: _, [] => none
  | b :: beginning, c :: t => if b = c then after? beginning t else none

/-- Whether `t` begins with `beginning`. -/
def startsWith (beginning t : Text) : Bool := (after? beginning t).isSome

/-- What precedes `ending` in `t`, if `t` ends with it. -/
def before? (ending t : Text) : Option Text := (after? ending.reverse t.reverse).map List.reverse

/-- Whether `t` ends with `ending`. -/
def endsWith (ending t : Text) : Bool := (before? ending t).isSome

/-! ## Cutting inside -/

/-- The parts of a text between the occurrences of a character; always at least one. -/
def splitAt (mark : Char) : Text → List Text
  | [] => [[]]
  | c :: t =>
    if c = mark then [] :: splitAt mark t
    else match splitAt mark t with
      | [] => [[c]]
      | part :: parts => (c :: part) :: parts

/-- The lines of a text: what lies between line feeds. -/
def lines (t : Text) : List Text := splitAt '\n' t

/-- Lines put together again, with a line feed between neighbours. -/
def unlines : List Text → Text
  | [] => []
  | [line] => line
  | line :: next :: more => line ++ '\n' :: unlines (next :: more)

/-- The text up to its first line feed. -/
def firstLine (t : Text) : Text := t.takeWhile (· ≠ '\n')

/-- The text from its first line feed on. -/
def fromLineEnd (t : Text) : Text := t.dropWhile (· ≠ '\n')

/-- What precedes and what follows the first occurrence of a character. -/
def cutAt? (mark : Char) (t : Text) : Option (Text × Text) :=
  match t.dropWhile (· ≠ mark) with
  | [] => none
  | _ :: rest => some (t.takeWhile (· ≠ mark), rest)

/-! ## Measures and numbers -/

/-- The number of bytes of the text in UTF-8. -/
def byteLength : Text → Nat
  | [] => 0
  | c :: rest => c.utf8Size + byteLength rest

/-- The decimal digits of a number. -/
def ofNat (n : Nat) : Text := Nat.toDigits 10 n

/-- The number that ASCII digits write, read on after the digits of `acc`. -/
def digitsValue (acc : Nat) (digits : Text) : Nat :=
  digits.foldl (fun n c => 10 * n + (c.toNat - 0x30)) acc

/-- A number written with one or more ASCII digits and nothing else. -/
def toNat? (t : Text) : Option Nat :=
  if t ≠ [] ∧ t.all isAsciiDigit then some (digitsValue 0 t) else none

/-! ## What the operations do -/

@[simp] theorem after?_nil (t : Text) : after? [] t = some t := by
  cases t <;> rfl

theorem after?_eq_some_iff {beginning t rest : Text} :
    after? beginning t = some rest ↔ t = beginning ++ rest := by
  induction beginning generalizing t with
  | nil => simp [eq_comm]
  | cons b beginning ih =>
    cases t with
    | nil => simp [after?]
    | cons c t =>
      by_cases h : b = c
      · simp [after?, h, ih]
      · simp [after?, h, Ne.symm h]

theorem startsWith_iff {beginning t : Text} :
    startsWith beginning t = true ↔ ∃ rest, t = beginning ++ rest := by
  simp [startsWith, Option.isSome_iff_exists, after?_eq_some_iff]

theorem splitAt_ne_nil (mark : Char) (t : Text) : splitAt mark t ≠ [] := by
  cases t with
  | nil => simp [splitAt]
  | cons c t =>
    rw [splitAt]
    split
    · simp
    · split <;> simp

/-- Taking a text apart into lines and putting them together gives the text back. -/
theorem unlines_lines (t : Text) : unlines (lines t) = t := by
  induction t with
  | nil => rfl
  | cons c t ih =>
    unfold lines at ih ⊢
    rw [splitAt]
    split
    · rename_i h
      subst h
      cases hs : splitAt '\n' t with
      | nil => exact absurd hs (splitAt_ne_nil _ _)
      | cons line more => rw [hs] at ih; simp [unlines, ih]
    · cases hs : splitAt '\n' t with
      | nil => exact absurd hs (splitAt_ne_nil _ _)
      | cons line more =>
        rw [hs] at ih
        cases more with
        | nil => simpa [unlines] using ih
        | cons next more => simpa [unlines] using ih

theorem firstLine_append_fromLineEnd (t : Text) : firstLine t ++ fromLineEnd t = t :=
  List.takeWhile_append_dropWhile

end Text

end DoRunner
