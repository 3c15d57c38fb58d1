import DoRunner.Proofs.Echo.PlainOutput

/-!
# Colours in the output

The program sets colours by sequences that select a **rendition**: an escape character, a bracket,
decimal parameters with semicolons between them, and the letter `m`. In the output that is read they
should have vanished.

No form is made for these sequences as a whole. The form that ends in `m` has room for one parameter
of two digits at most. The form with a semicolon, which is made for moving the cursor, is over after
its second number. So a longer parameter keeps its whole sequence in the output, and of two or more
parameters the sequence leaves what stands behind the second (`residue`). What is left does not
depend on the text around it (`strip_rendition_append`), so `plain_rendered` says what becomes of
any text in which renditions are selected, and exactly when the text itself is read.
-/

namespace DoRunner.Terminal

/-! ## Sequences -/

/-- Whether the text is a decimal parameter: one or more digits. -/
def IsParameter (t : Text) : Prop := t ≠ [] ∧ ∀ c ∈ t, isDigit c = true

instance (t : Text) : Decidable (IsParameter t) :=
  decidable_of_iff (t ≠ [] ∧ t.all isDigit = true) (and_congr_right fun _ => List.all_eq_true)

/-- The sequence that selects a rendition. -/
def rendition (parameters : List Text) : Text :=
  '\x1b' :: '[' :: ([';'].intercalate parameters ++ ['m'])

/-- What stays of it in the output. -/
def residue : List Text → Text
  | [] => []
  | [parameter] => if parameter.length ≤ 2 then [] else rendition [parameter]
  | _ :: _ :: more => more.flatMap (';' :: ·) ++ ['m']

/-- Whether the sequence has at most one parameter, of at most two digits. -/
def IsShort (parameters : List Text) : Prop :=
  parameters.length ≤ 1 ∧ ∀ p ∈ parameters, p.length ≤ 2

instance (parameters : List Text) : Decidable (IsShort parameters) :=
  inferInstanceAs (Decidable (_ ∧ _))

theorem residue_eq_nil_iff (parameters : List Text) :
    residue parameters = [] ↔ IsShort parameters := by
  match parameters with
  | [] => simp [residue, IsShort]
  | [parameter] => simp [residue, IsShort, rendition]
  | first :: second :: more => simp [residue, IsShort]

/-! ## Pieces -/

namespace Piece

theorem taken?_oneOf_cons (chars : String) (c : Char) (t : Text) :
    (oneOf chars).taken? (c :: t) = if foldCase c ∈ chars.toList then some 1 else none := by
  by_cases h : foldCase c ∈ chars.toList
  · simp [taken?, oneOf, h]
  · simp [taken?, oneOf, h]

theorem taken?_maybe_cons (chars : String) (c : Char) (t : Text) :
    (maybe chars).taken? (c :: t) = some (if foldCase c ∈ chars.toList then 1 else 0) := by
  by_cases h : foldCase c ∈ chars.toList
  · simp [taken?, maybe, oneOf, h]
  · simp [taken?, maybe, oneOf, h]

section Digits

variable {number t : Text} (digits : ∀ c ∈ number, isDigit c = true)
  (ends : ∀ c ∈ t.head?, isDigit c = false)

include digits ends

theorem takeWhile_isDigit : (number ++ t).takeWhile isDigit = number := by
  rw [List.takeWhile_append_of_pos digits]
  cases t with
  | nil => rw [List.takeWhile_nil, List.append_nil]
  | cons c t =>
    rw [List.takeWhile_cons_of_neg (by rw [ends c rfl]; simp), List.append_nil]

theorem taken?_digits (nonempty : number ≠ []) :
    Piece.digits.taken? (number ++ t) = some number.length := by
  have least : 1 ≤ number.length := List.length_pos_iff.mpr nonempty
  unfold taken? Piece.digits
  dsimp only
  rw [takeWhile_isDigit digits ends, if_pos least]

theorem taken?_upToTwoDigits :
    upToTwoDigits.taken? (number ++ t) = some (min 2 number.length) := by
  unfold taken? upToTwoDigits
  dsimp only
  rw [takeWhile_isDigit digits ends, if_pos (Nat.zero_le _)]

end Digits

end Piece

theorem toLower_of_isDigit {c : Char} (h : isDigit c = true) : c.toLower = c := by
  unfold Char.toLower
  refine dif_neg fun upper => ?_
  -- an upper case letter is in ASCII, and there only the ten digits are digits
  have least : 0x41 ≤ c.toNat := UInt32.le_iff_toNat_le.mp upper.1
  have greatest : c.toNat ≤ 0x5A := UInt32.le_iff_toNat_le.mp upper.2
  rw [isDigit, if_pos (by omega), isAsciiDigit, Bool.and_eq_true, decide_eq_true_eq,
    decide_eq_true_eq] at h
  omega

theorem foldCase_of_isDigit {c : Char} (h : isDigit c = true) : foldCase c = c := by
  have kelvin : c ≠ '\u212A' := by
    rintro rfl
    exact absurd h (by decide)
  have longS : c ≠ '\u017F' := by
    rintro rfl
    exact absurd h (by decide)
  rw [foldCase, if_neg kelvin, if_neg longS, toLower_of_isDigit h]

/-- A digit is in no class that has no digits. -/
theorem foldCase_notMem {c : Char} (h : isDigit c = true) {chars : String}
    (none : chars.toList.all (fun d => !isDigit d) = true) : foldCase c ∉ chars.toList := by
  rw [foldCase_of_isDigit h]
  intro m
  have digitless := List.all_eq_true.mp none c m
  rw [h] at digitless
  exact absurd digitless (by decide)

section Number

variable {number : Text} (parameter : IsParameter number) {chars : String}
  (none : chars.toList.all (fun d => !isDigit d) = true)

include parameter none

theorem Piece.taken?_oneOf_parameter (t : Text) :
    (Piece.oneOf chars).taken? (number ++ t) = .none := by
  obtain ⟨nonempty, digits⟩ := parameter
  cases number with
  | nil => exact absurd rfl nonempty
  | cons c number =>
    rw [List.cons_append, taken?_oneOf_cons,
      if_neg (foldCase_notMem (digits c List.mem_cons_self) none)]

theorem Piece.taken?_maybe_parameter (t : Text) :
    (Piece.maybe chars).taken? (number ++ t) = some 0 := by
  obtain ⟨nonempty, digits⟩ := parameter
  cases number with
  | nil => exact absurd rfl nonempty
  | cons c number =>
    rw [List.cons_append, taken?_maybe_cons,
      if_neg (foldCase_notMem (digits c List.mem_cons_self) none)]

end Number

/-! ## Forms -/

theorem Form.taken?_cons_of_none {piece : Piece} {t : Text} (h : piece.taken? t = none)
    (form : Form) : Form.taken? (piece :: form) t = none := by
  rw [Form.taken?, h]

theorem Form.taken?_cons_of_some {piece : Piece} {t : Text} {n : Nat} (h : piece.taken? t = some n)
    (form : Form) : Form.taken? (piece :: form) t = (Form.taken? form (t.drop n)).map (n + ·) := by
  rw [Form.taken?, h]

/-- What may follow a bracket, in the order in which it is tried. -/
def bracketForms : List Form := [
  [.maybe "?", .digits, .oneOf "hl"],
  [.upToTwoDigits, .oneOf "mabcdgkjqi"],
  [.digits, .oneOf ";", .digits, .maybe "hfy"],
  [.maybe ";", .oneOf "hf"],
  [.oneOf "?", .digit, .oneOf ";", .digit, .oneOf "0", .oneOf "c"]]

theorem sequenceLength?_bracket (t : Text) :
    sequenceLength? ('[' :: t)
      = (bracketForms.findSome? fun form => form.taken? t).map (1 + ·) := by
  have bracket (form : Form) :
      Form.taken? (.oneOf "[" :: form) ('[' :: t) = (Form.taken? form t).map (1 + ·) :=
    Form.taken?_cons_of_some (rfl : (Piece.oneOf "[").taken? ('[' :: t) = some 1) form
  have other (piece : Piece) (none : piece.taken? ('[' :: t) = none) (form : Form) :
      Form.taken? (piece :: form) ('[' :: t) = .none := Form.taken?_cons_of_none none form
  rw [List.map_findSome?, sequenceLength?, forms, bracketForms]
  simp only [List.findSome?_cons, List.findSome?_nil, bracket, Function.comp_apply]
  rw [other (.oneOf "=<>abcdefghijkznm78") rfl, other (.oneOf "()") rfl,
    other (.oneOf "#") rfl, other (.oneOf "01356") rfl,
    other (.oneOf "o") rfl, other (.oneOf "/") rfl, other .digits rfl]

theorem sequenceLength?_unnumbered (t : Text) : sequenceLength? ('[' :: 'm' :: t) = some 2 := by
  rw [sequenceLength?_bracket]
  rfl

section Numbered

variable {number : Text} (parameter : IsParameter number) {c : Char}
  (digitless : isDigit c = false) (t : Text)

include parameter digitless

/-- No mode is set or reset by a parameter alone. -/
theorem modeForm_taken? (unwanted : foldCase c ∉ "hl".toList) :
    Form.taken? [.maybe "?", .digits, .oneOf "hl"] (number ++ c :: t) = none := by
  have ends : ∀ d ∈ (c :: t).head?, isDigit d = false := by simpa using digitless
  rw [Form.taken?_cons_of_some (Piece.taken?_maybe_parameter parameter rfl _), List.drop_zero,
    Form.taken?_cons_of_some (Piece.taken?_digits parameter.2 ends parameter.1), List.drop_left,
    Form.taken?_cons_of_none (by rw [Piece.taken?_oneOf_cons, if_neg unwanted])]
  rfl

/-- The form that ends in a letter reads a parameter of at most two digits, if a letter is behind
it. -/
theorem letterForm_taken? :
    Form.taken? [.upToTwoDigits, .oneOf "mabcdgkjqi"] (number ++ c :: t)
      = if number.length ≤ 2 ∧ foldCase c ∈ "mabcdgkjqi".toList then some (number.length + 1)
        else none := by
  have ends : ∀ d ∈ (c :: t).head?, isDigit d = false := by simpa using digitless
  rw [Form.taken?_cons_of_some (Piece.taken?_upToTwoDigits parameter.2 ends)]
  by_cases short : number.length ≤ 2
  · rw [Nat.min_eq_right short, List.drop_left, Form.taken?, Piece.taken?_oneOf_cons]
    by_cases letter : foldCase c ∈ "mabcdgkjqi".toList
    · rw [if_pos letter, if_pos ⟨short, letter⟩]
      rfl
    · rw [if_neg letter, if_neg (fun both => letter both.2)]
      rfl
  · -- a third digit is no letter
    have long : 2 < number.length := Nat.lt_of_not_le short
    have rest : IsParameter (number.drop 2) :=
      ⟨fun none => absurd (List.drop_eq_nil_iff.mp none) short,
        fun d m => parameter.2 d (List.mem_of_mem_drop m)⟩
    rw [Nat.min_eq_left long.le, List.drop_append_of_le_length long.le,
      Form.taken?_cons_of_none (Piece.taken?_oneOf_parameter rest rfl _),
      if_neg (fun both => short both.1)]
    rfl

/-- The form of two numbers goes on behind the first only where a semicolon is. -/
theorem placeForm_taken? (form : Form) :
    Form.taken? (.digits :: .oneOf ";" :: form) (number ++ c :: t)
      = if foldCase c ∈ ";".toList then (form.taken? t).map (number.length + 1 + ·) else none := by
  have ends : ∀ d ∈ (c :: t).head?, isDigit d = false := by simpa using digitless
  rw [Form.taken?_cons_of_some (Piece.taken?_digits parameter.2 ends parameter.1), List.drop_left,
    Form.taken?, Piece.taken?_oneOf_cons]
  by_cases semicolon : foldCase c ∈ ";".toList
  · rw [if_pos semicolon, if_pos semicolon]
    simp only [List.drop_succ_cons, List.drop_zero, Option.map_map, Function.comp_def, Nat.add_assoc]
  · rw [if_neg semicolon, if_neg semicolon]
    rfl

end Numbered

/-- A parameter alone is read if it is short. -/
theorem sequenceLength?_one {number : Text} (parameter : IsParameter number) (t : Text) :
    sequenceLength? ('[' :: (number ++ 'm' :: t))
      = if number.length ≤ 2 then some (number.length + 2) else none := by
  have digitless : isDigit 'm' = false := by decide
  have letter : foldCase 'm' ∈ "mabcdgkjqi".toList := by decide
  have place :
      Form.taken? [.digits, .oneOf ";", .digits, .maybe "hfy"] (number ++ 'm' :: t) = none := by
    rw [placeForm_taken? parameter digitless, if_neg (by decide)]
  have start : Form.taken? [.maybe ";", .oneOf "hf"] (number ++ 'm' :: t) = none := by
    rw [Form.taken?_cons_of_some (Piece.taken?_maybe_parameter parameter rfl _), List.drop_zero,
      Form.taken?_cons_of_none (Piece.taken?_oneOf_parameter parameter rfl _)]
    rfl
  rw [sequenceLength?_bracket, bracketForms]
  simp only [List.findSome?_cons, List.findSome?_nil]
  rw [modeForm_taken? parameter digitless t (by decide), letterForm_taken? parameter digitless, place,
    start, Form.taken?_cons_of_none (Piece.taken?_oneOf_parameter parameter rfl _)]
  by_cases short : number.length ≤ 2
  · rw [if_pos short, if_pos ⟨short, letter⟩]
    exact congrArg some (Nat.add_comm 1 _)
  · rw [if_neg short, if_neg (fun both => short both.1)]
    rfl

/-- Of several parameters the first two are read, with the semicolon between them. -/
theorem sequenceLength?_two {first second : Text} (parameter : IsParameter first)
    (next : IsParameter second) {c : Char} (behind : c = ';' ∨ c = 'm') (t : Text) :
    sequenceLength? ('[' :: (first ++ ';' :: (second ++ c :: t)))
      = some (first.length + second.length + 2) := by
  have digitless : isDigit ';' = false := by decide
  have ends : ∀ d ∈ (c :: t).head?, isDigit d = false := by
    rintro d ⟨⟩
    rcases behind with rfl | rfl <;> decide
  have unwanted : foldCase c ∉ "hfy".toList := by
    rcases behind with rfl | rfl <;> decide
  have place : Form.taken? [.digits, .maybe "hfy"] (second ++ c :: t) = some second.length := by
    rw [Form.taken?_cons_of_some (Piece.taken?_digits next.2 ends next.1), List.drop_left,
      Form.taken?_cons_of_some (Piece.taken?_maybe_cons ..), if_neg unwanted]
    rfl
  rw [sequenceLength?_bracket, bracketForms]
  simp only [List.findSome?_cons]
  rw [modeForm_taken? parameter digitless _ (by decide), letterForm_taken? parameter digitless,
    if_neg (fun both => absurd both.2 (by decide)), placeForm_taken? parameter digitless,
    if_pos (by decide), place]
  simp only [Option.map_some]
  congr 1
  omega

/-! ## What is left -/

theorem escape_notMem {number : Text} (parameter : IsParameter number) : '\x1b' ∉ number :=
  fun m => absurd (parameter.2 _ m) (by decide)

/-- The parameters behind the first, each with the semicolon before it. -/
theorem intercalate_cons (first : Text) (more : List Text) :
    [';'].intercalate (first :: more) = first ++ more.flatMap (';' :: ·) := by
  induction more generalizing first with
  | nil => simp
  | cons second more ih =>
    rw [List.intercalate_cons_cons, ih, List.flatMap_cons, List.append_assoc]
    rfl

/-- No carriage return comes with a sequence. -/
theorem return_notMem_rendition {parameters : List Text} (h : ∀ p ∈ parameters, IsParameter p) :
    '\r' ∉ rendition parameters := by
  have number {p : Text} (m : p ∈ parameters) : '\r' ∉ p :=
    fun inside => absurd ((h p m).2 _ inside) (by decide)
  cases parameters with
  | nil => decide
  | cons first more =>
    have others : '\r' ∉ more.flatMap (';' :: ·) := by
      rw [List.mem_flatMap]
      rintro ⟨p, m, inside⟩
      rcases List.mem_cons.mp inside with semicolon | inside
      · exact absurd semicolon (by decide)
      · exact number (List.mem_cons_of_mem _ m) inside
    simp [rendition, intercalate_cons, number List.mem_cons_self, others]

theorem strip_append_of_notMem {s : Text} (h : '\x1b' ∉ s) (t : Text) :
    strip (s ++ t) = s ++ strip t := by
  induction s with
  | nil => rfl
  | cons c s ih =>
    have hc : c ≠ '\x1b' := fun e => h (e ▸ List.mem_cons_self)
    rw [List.cons_append, strip, if_neg hc, ih (fun m => h (List.mem_cons_of_mem _ m)),
      List.cons_append]

theorem strip_escape_of_some {t : Text} {n : Nat} (h : sequenceLength? t = some n) :
    strip ('\x1b' :: t) = strip (t.drop n) := by
  rw [strip, if_pos rfl, h]

theorem strip_escape_of_none {t : Text} (h : sequenceLength? t = none) :
    strip ('\x1b' :: t) = '\x1b' :: strip t := by
  rw [strip, if_pos rfl, h]

/-- **What a sequence leaves depends on nothing around it.** -/
theorem strip_rendition_append {parameters : List Text} (h : ∀ p ∈ parameters, IsParameter p)
    (t : Text) : strip (rendition parameters ++ t) = residue parameters ++ strip t := by
  match parameters with
  | [] =>
    show strip ('\x1b' :: '[' :: 'm' :: t) = strip t
    rw [strip_escape_of_some (sequenceLength?_unnumbered t)]
    rfl
  | [number] =>
    have parameter : IsParameter number := h number List.mem_cons_self
    have raw : rendition [number] ++ t = '\x1b' :: '[' :: (number ++ 'm' :: t) := by
      simp [rendition]
    have read := sequenceLength?_one parameter t
    by_cases short : number.length ≤ 2
    · rw [if_pos short] at read
      rw [raw, strip_escape_of_some read, residue, if_pos short]
      show strip ((number ++ 'm' :: t).drop (number.length + 1)) = strip t
      rw [List.drop_append, List.drop_eq_nil_of_le (Nat.le_succ _)]
      simp
    · rw [if_neg short] at read
      have silent : '\x1b' ∉ '[' :: number ++ ['m'] := by
        simp [escape_notMem parameter]
      have rest : '[' :: (number ++ 'm' :: t) = ('[' :: number ++ ['m']) ++ t := by simp
      rw [raw, strip_escape_of_none read, residue, if_neg short, rest,
        strip_append_of_notMem silent]
      simp [rendition]
  | first :: second :: more =>
    have parameter : IsParameter first := h first List.mem_cons_self
    have next : IsParameter second := h second (List.mem_cons_of_mem _ List.mem_cons_self)
    -- behind the second parameter stands a semicolon or the letter at the end
    obtain ⟨c, rest, left, behind⟩ : ∃ c rest, residue (first :: second :: more) ++ t = c :: rest ∧
        (c = ';' ∨ c = 'm') := by
      cases more with
      | nil => exact ⟨'m', t, rfl, .inr rfl⟩
      | cons third more =>
        exact ⟨';', _, by rw [residue, List.flatMap_cons, List.cons_append, List.cons_append,
          List.cons_append], .inl rfl⟩
    have raw : rendition (first :: second :: more) ++ t
        = '\x1b' :: '[' :: (first ++ ';' :: (second ++ c :: rest)) := by
      rw [← left, rendition, intercalate_cons]
      simp [residue]
    have silent : '\x1b' ∉ residue (first :: second :: more) := by
      intro m
      rw [residue, List.mem_append, List.mem_flatMap, List.mem_singleton] at m
      rcases m with ⟨p, m, inside⟩ | last
      · rcases List.mem_cons.mp inside with semicolon | inside
        · exact absurd semicolon (by decide)
        · exact escape_notMem (h p (List.mem_cons_of_mem _ (List.mem_cons_of_mem _ m))) inside
      · exact absurd last (by decide)
    rw [raw, strip_escape_of_some (sequenceLength?_two parameter next behind rest),
      ← strip_append_of_notMem silent, left]
    congr 1
    have length : first.length + second.length + 2
        = ('[' :: (first ++ ';' :: second)).length := by
      simp
      omega
    have whole : '[' :: (first ++ ';' :: (second ++ c :: rest))
        = ('[' :: (first ++ ';' :: second)) ++ c :: rest := by simp
    rw [length, whole, List.drop_left]

/-- Of three parameters the semicolon before the last stays, with all behind it. -/
example : strip "\x1b[1;2;3mbold".toList = ";3mbold".toList := by cbv

/-! ## Texts with renditions -/

/-- A text in which renditions are selected: its pieces, each with the parameters of the sequence
behind it, and the piece behind the last sequence. -/
structure Rendered where
  /-- The pieces with the parameters behind them. -/
  pieces : List (Text × List Text)
  /-- The last piece. -/
  last : Text
deriving DecidableEq, Repr

namespace Rendered

/-- The text itself. -/
def text (r : Rendered) : Text := r.pieces.flatMap Prod.fst ++ r.last

/-- The text with the sequences in it. -/
def raw (r : Rendered) : Text :=
  r.pieces.flatMap (fun (piece, parameters) => piece ++ rendition parameters) ++ r.last

/-- The text with what the sequences leave. -/
def left (r : Rendered) : Text :=
  r.pieces.flatMap (fun (piece, parameters) => piece ++ residue parameters) ++ r.last

theorem left_cons (piece : Text × List Text) (pieces : List (Text × List Text)) (last : Text) :
    left ⟨piece :: pieces, last⟩ = piece.1 ++ (residue piece.2 ++ left ⟨pieces, last⟩) := by
  simp [left]

theorem text_cons (piece : Text × List Text) (pieces : List (Text × List Text)) (last : Text) :
    text ⟨piece :: pieces, last⟩ = piece.1 ++ text ⟨pieces, last⟩ := List.append_assoc ..

/-- The text is plain, and the parameters are numbers. -/
structure Proper (r : Rendered) : Prop where
  unescaped : '\x1b' ∉ r.text
  unreturned : '\r' ∉ r.text
  parameters : ∀ piece ∈ r.pieces, ∀ p ∈ piece.2, IsParameter p

variable {r : Rendered} (proper : r.Proper)

include proper

theorem Proper.strip_raw : strip r.raw = r.left := by
  obtain ⟨pieces, last⟩ := r
  induction pieces with
  | nil => exact strip_of_notMem proper.unescaped
  | cons first pieces ih =>
    obtain ⟨piece, parameters⟩ := first
    obtain ⟨unescaped, unreturned, numbers⟩ := proper
    rw [text_cons, List.mem_append, not_or] at unescaped unreturned
    have rest : strip (raw ⟨pieces, last⟩) = left ⟨pieces, last⟩ :=
      ih ⟨unescaped.2, unreturned.2, fun p m => numbers p (List.mem_cons_of_mem _ m)⟩
    calc strip (raw ⟨(piece, parameters) :: pieces, last⟩)
        = strip (piece ++ (rendition parameters ++ raw ⟨pieces, last⟩)) := by
          simp [raw]
      _ = piece ++ (residue parameters ++ strip (raw ⟨pieces, last⟩)) := by
          rw [strip_append_of_notMem unescaped.1,
            strip_rendition_append (numbers _ List.mem_cons_self)]
      _ = left ⟨(piece, parameters) :: pieces, last⟩ := by
          rw [rest, left_cons]

theorem Proper.return_notMem_raw : '\r' ∉ r.raw := by
  have unreturned := proper.unreturned
  rw [text, List.mem_append, List.mem_flatMap, not_or] at unreturned
  rw [raw, List.mem_append, List.mem_flatMap]
  rintro (⟨piece, m, inside⟩ | inside)
  · rcases List.mem_append.mp inside with inside | inside
    · exact unreturned.1 ⟨piece, m, inside⟩
    · exact return_notMem_rendition (proper.parameters piece m) inside
  · exact unreturned.2 inside

/-- **Each sequence leaves its residue in the text,** and nothing else changes. -/
theorem Proper.plain_raw : plain r.raw = r.left := by
  rw [plain, dropCarriageReturns_of_notMem proper.return_notMem_raw, proper.strip_raw]

omit proper

theorem length_text_le (r : Rendered) : r.text.length ≤ r.left.length := by
  obtain ⟨pieces, last⟩ := r
  induction pieces with
  | nil => exact Nat.le_refl _
  | cons piece pieces ih =>
    rw [left_cons, text_cons]
    simp only [List.length_append]
    omega

/-- The text itself is left only where no sequence leaves anything, since what is left is longer than
the text by what the sequences leave. -/
theorem left_eq_text_iff (r : Rendered) :
    r.left = r.text ↔ ∀ piece ∈ r.pieces, IsShort piece.2 := by
  obtain ⟨pieces, last⟩ := r
  induction pieces with
  | nil => exact iff_of_true rfl fun _ m => absurd m List.not_mem_nil
  | cons piece pieces ih =>
    rw [left_cons, text_cons, List.append_cancel_left_eq, List.forall_mem_cons, ← ih,
      ← residue_eq_nil_iff]
    constructor
    · intro same
      have least := length_text_le ⟨pieces, last⟩
      have lengths := congrArg List.length same
      rw [List.length_append] at lengths
      have nothing : residue piece.2 = [] := List.length_eq_zero_iff.mp (by omega)
      exact ⟨nothing, by rwa [nothing] at same⟩
    · rintro ⟨nothing, same⟩
      rw [nothing, same]
      rfl

end Rendered

/-- **Which renditions vanish.** Each sequence leaves its residue in the text and nothing else
changes. So the text itself is read exactly when no sequence has more than one parameter, nor one of
more than two digits. -/
theorem plain_rendered {r : Rendered} (proper : r.Proper) :
    plain r.raw = r.left ∧ (plain r.raw = r.text ↔ ∀ piece ∈ r.pieces, IsShort piece.2) := by
  have left : plain r.raw = r.left := proper.plain_raw
  exact ⟨left, by rw [left, Rendered.left_eq_text_iff]⟩

/-- One colour is set and reset. -/
theorem plain_rendered_oneColour :
    let r : Rendered := ⟨[("a ".toList, ["31".toList]), ("b".toList, [])], " c".toList⟩
    r.Proper ∧ r.raw = "a \x1b[31mb\x1b[m c".toList ∧ (∀ piece ∈ r.pieces, IsShort piece.2) ∧
      plain r.raw = "a b c".toList := by
  intro r
  have short : ∀ piece ∈ r.pieces, IsShort piece.2 := by decide
  have proper : r.Proper := ⟨by decide, by decide, by decide⟩
  exact ⟨proper, by decide, short, (plain_rendered proper).2.mpr short⟩

/-- Of a colour with a second parameter the letter at the end stays, and a parameter of three digits
keeps all of its sequence. -/
theorem plain_rendered_boldColour :
    let bold : Rendered := ⟨[("a ".toList, ["1".toList, "31".toList])], "b".toList⟩
    let long : Rendered := ⟨[("a ".toList, ["100".toList])], "b".toList⟩
    (bold.Proper ∧ bold.text = "a b".toList ∧ plain bold.raw = "a mb".toList ∧
      plain bold.raw ≠ bold.text) ∧
    long.Proper ∧ long.text = "a b".toList ∧ plain long.raw = "a \x1b[100mb".toList ∧
      plain long.raw ≠ long.text := by
  intro bold long
  have properBold : bold.Proper := ⟨by decide, by decide, by decide⟩
  have properLong : long.Proper := ⟨by decide, by decide, by decide⟩
  rw [properBold.plain_raw, properLong.plain_raw]
  exact ⟨⟨properBold, by decide, by decide, by decide⟩, properLong, by decide, by decide, by decide⟩

end DoRunner.Terminal
