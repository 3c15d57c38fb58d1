/-!
# Binary floating point numbers

The scale of a graph is a binary64 number of IEEE 754, kept as its 64 bits. Every finite one is a
whole number of **units**, the unit being the smallest positive number, two to the power of -1074.
What is exact can therefore be said in natural numbers: a product of a pixel count and a scale is a
number of units, and rounding it is rounding a natural number.
-/

namespace DoRunner

/-- A binary64 number. -/
structure Binary64 where
  /-- The sign bit, the eleven exponent bits and the 52 fraction bits. -/
  bits : UInt64
deriving DecidableEq, Repr

namespace Binary64

/-- What a number stands for. -/
inductive Value where
  /-- A finite number as a multiple of the unit. -/
  | finite (negative : Bool) (units : Nat)
  /-- An infinity. -/
  | infinite (negative : Bool)
  /-- No number. -/
  | nan
deriving DecidableEq, Repr

/-- The number of units that make one. -/
def one : Nat := 1 <<< 1074

/-- What the bits stand for. -/
def value (x : Binary64) : Value :=
  let negative := x.bits.toNat >>> 63 = 1
  let exponent := x.bits.toNat >>> 52 % 2048
  let fraction := x.bits.toNat % (1 <<< 52)
  if exponent = 2047 then if fraction = 0 then .infinite negative else .nan
  else if exponent = 0 then .finite negative fraction
  else .finite negative ((1 <<< 52 + fraction) <<< (exponent - 1))

/-! ## Rounding -/

/-- A quotient rounded to the nearest natural number, a half to the even one. -/
def roundHalfEven (num den : Nat) : Nat :=
  let quotient := num / den
  let twice := 2 * (num % den)
  if twice < den ∨ (twice = den ∧ quotient % 2 = 0) then quotient else quotient + 1

/-- A quotient in units rounded to the nearest number of units that has 53 significant bits. -/
def roundUnits (num den : Nat) : Nat :=
  let whole := num / den
  if whole < 1 <<< 53 then roundHalfEven num den
  else
    let step := 1 <<< (whole.log2 - 52)
    roundHalfEven num (den * step) * step

/-- The number that is nearest to no other, and whose sign means nothing. -/
def nan : Binary64 := ⟨0x7FF8000000000000⟩

/-- The bits with a sign. -/
def signed (negative : Bool) (bits : Nat) : Binary64 :=
  ⟨((if negative then 1 <<< 63 else 0) + bits).toUInt64⟩

/-- An infinity. -/
def infinity (negative : Bool) : Binary64 := signed negative (2047 <<< 52)

/-- The number with so many units, of which there are at most 53 significant bits. Beyond the
greatest finite number it is an infinity. -/
def ofUnits (negative : Bool) (units : Nat) : Binary64 :=
  let shift := units.log2 - 52
  if shift < 2046 then signed negative (shift <<< 52 + units >>> shift) else infinity negative

/-- The number nearest to `digits` times ten to the power of `exponent`. -/
def ofDecimal (negative : Bool) (digits : Nat) (exponent : Int) : Binary64 :=
  if digits = 0 then ofUnits negative 0
  else if 400 < exponent then infinity negative
  else if (Nat.toDigits 10 digits).length + exponent < -400 then ofUnits negative 0
  else
    match exponent with
    | .ofNat e => ofUnits negative (roundUnits (digits * Nat.pow 10 e * one) 1)
    | .negSucc e => ofUnits negative (roundUnits (digits * one) (Nat.pow 10 (e + 1)))

/-! ## Uses -/

/-- Whether the number is finite and above zero. -/
def isPositive (x : Binary64) : Bool :=
  match x.value with
  | .finite false units => 0 < units
  | _ => false

/-- The greatest pixel count. -/
def greatestPixels : Nat := 4294967295

/-- A pixel count times a scale: the product as a number of this kind, then rounded to a whole
number with halves away from zero, and held within the range of pixel counts. What is no number
counts as zero. -/
def scalePixels (pixels : Nat) (scale : Binary64) : Nat :=
  match scale.value with
  | .finite false units =>
    min greatestPixels ((2 * roundUnits (pixels * units) 1 + one) / (2 * one))
  | .infinite false => if pixels = 0 then 0 else greatestPixels
  | _ => 0

end Binary64

end DoRunner
