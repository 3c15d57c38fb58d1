import Mathlib.Algebra.Group.Nat.Defs
import DoRunner.Config.Basic

/-!
# The size of exported graphs

A configuration gives the size of graphs in pixels and a scale. That both dimensions and the scale
are positive is checked before the scale is applied, and a scale may be far below one over a
dimension. So a valid configuration may export graphs without a pixel.

The product of a dimension and the scale is rounded twice: to a number with 53 significant bits, then
to a whole number, halves away from zero. The second rounding gives a pixel from a half on, and the
first reaches a half from just below it, since a tie goes to the even neighbour
(`le_roundUnits_iff`). `SessionConfig.graphExport_size` says exactly which graphs have a size.
-/

namespace DoRunner

namespace Binary64

/-! ## Rounding -/

/-- **An even number is reached from halfway below it on.** -/
theorem le_roundHalfEven_iff {m num den : Nat} (even : m % 2 = 0) (positive : 0 < den) :
    m ≤ roundHalfEven num den ↔ 2 * (m * den) ≤ 2 * num + den := by
  have split := Nat.div_add_mod num den
  have small := Nat.mod_lt num positive
  unfold roundHalfEven
  dsimp only
  generalize num / den = quotient at *
  generalize num % den = remainder at *
  rcases Nat.lt_trichotomy m (quotient + 1) with below | rfl | above
  · have product := Nat.mul_le_mul_right den (Nat.le_of_lt_succ below)
    rw [Nat.mul_comm den] at split
    refine iff_of_true ?_ (by omega)
    split <;> omega
  · -- the quotient is odd, so that a tie goes up
    have odd : quotient % 2 = 1 := by omega
    have product : (quotient + 1) * den = quotient * den + den := Nat.succ_mul quotient den
    rw [Nat.mul_comm den] at split
    split <;> omega
  · have product := Nat.mul_le_mul_right den (Nat.succ_le_of_lt above)
    rw [Nat.succ_mul, Nat.succ_mul] at product
    rw [Nat.mul_comm den] at split
    refine iff_of_false ?_ (by omega)
    split <;> omega

theorem roundHalfEven_one (num : Nat) : roundHalfEven num 1 = num := by
  simp [roundHalfEven, Nat.mod_one]

/-- A product with more than 53 bits is rounded to a multiple of the distance between numbers of its
size. -/
theorem roundUnits_of_le {x : Nat} (h : 2 ^ 53 ≤ x) :
    roundUnits x 1 = roundHalfEven x (2 ^ (x.log2 - 52)) * 2 ^ (x.log2 - 52) := by
  unfold roundUnits
  rw [Nat.div_one, Nat.one_shiftLeft]
  dsimp only
  rw [if_neg (Nat.not_lt.mpr h), Nat.one_shiftLeft, Nat.one_mul]

/-- A power of two that is too great for all bits is reached from halfway below it on, in the distance
between numbers of the size of the product. -/
theorem pow_le_roundUnits_iff {x e : Nat} (h : 2 ^ 53 ≤ x) (less : x.log2 - 52 < e) :
    2 ^ e ≤ roundUnits x 1 ↔ 2 * 2 ^ e ≤ 2 * x + 2 ^ (x.log2 - 52) := by
  obtain ⟨k, rfl⟩ := Nat.exists_eq_add_of_lt less
  have positive : 0 < 2 ^ (x.log2 - 52) := Nat.two_pow_pos _
  have multiple : 2 ^ (x.log2 - 52 + k + 1) = 2 ^ (k + 1) * 2 ^ (x.log2 - 52) := by
    rw [← Nat.pow_add]
    congr 1
    omega
  have even : 2 ^ (k + 1) % 2 = 0 := by
    rw [Nat.pow_succ]
    exact Nat.mul_mod_left _ _
  rw [roundUnits_of_le h, multiple, Nat.mul_le_mul_right_iff positive,
    le_roundHalfEven_iff even positive]

/-- **A power of two is reached from just below it:** from half of the distance to the number before
it on. -/
theorem le_roundUnits_iff {e x : Nat} (h : 54 ≤ e) :
    2 ^ e ≤ roundUnits x 1 ↔ 2 ^ e ≤ x + 2 ^ (e - 54) := by
  have double : 2 ^ e = 2 * 2 ^ (e - 1) := by
    rw [← Nat.pow_succ']
    congr 1
    omega
  have distance : 2 ^ (e - 54) ≤ 2 ^ (e - 1) := Nat.pow_le_pow_right (by decide) (by omega)
  by_cases exact : x < 2 ^ 53
  · -- so small a number is not rounded at all
    have rounded : roundUnits x 1 = x := by
      unfold roundUnits
      rw [Nat.div_one, Nat.one_shiftLeft]
      dsimp only
      rw [if_pos exact, roundHalfEven_one]
    have small : 2 ^ 53 ≤ 2 ^ (e - 1) := Nat.pow_le_pow_right (by decide) (by omega)
    rw [rounded]
    omega
  · have large : 2 ^ 53 ≤ x := Nat.le_of_not_lt exact
    have nonzero : x ≠ 0 := by
      rintro rfl
      exact absurd large (by decide)
    have bits : 53 ≤ x.log2 := (Nat.le_log2 nonzero).mpr large
    have least : 2 ^ x.log2 ≤ x := Nat.log2_self_le nonzero
    have greatest : x < 2 ^ (x.log2 + 1) := Nat.lt_log2_self
    rcases Nat.lt_trichotomy e (x.log2 + 1) with reached | rfl | beyond
    · have power : 2 ^ e ≤ 2 ^ x.log2 := Nat.pow_le_pow_right (by decide) (Nat.le_of_lt_succ reached)
      have rounded : 2 ^ x.log2 ≤ roundUnits x 1 :=
        (pow_le_roundUnits_iff large (by omega)).mpr
          (Nat.le_add_right_of_le (Nat.mul_le_mul_left 2 least))
      exact iff_of_true (Nat.le_trans power rounded)
        (Nat.le_add_right_of_le (Nat.le_trans power least))
    · -- the product has one bit less than the power
      have step : 2 ^ (x.log2 - 52) = 2 * 2 ^ (x.log2 + 1 - 54) := by
        rw [← Nat.pow_succ']
        congr 1
        omega
      rw [pow_le_roundUnits_iff large (by omega), step]
      omega
    · have power : 2 ^ (x.log2 + 1) ≤ 2 ^ (e - 1) := Nat.pow_le_pow_right (by decide) (by omega)
      have step : 2 ^ (x.log2 - 52) ≤ 2 ^ (e - 1) := Nat.pow_le_pow_right (by decide) (by omega)
      rw [pow_le_roundUnits_iff large (by omega)]
      omega

/-! ## Scaling -/

/-- The least product in units that gives a pixel: a half, less half of the distance between it and the
number before it. -/
def leastPixel : Nat := one / 2 - one / 2 ^ 55

/-- How a half is made of the two, for any power of two, so that no number of this size is
computed. -/
theorem shiftLeft_split {e : Nat} (h : 54 ≤ e) :
    (1 <<< (e + 1)) / 2 - (1 <<< (e + 1)) / 2 ^ 55 + 2 ^ (e - 54) = 2 ^ e ∧
      2 * 2 ^ e = 1 <<< (e + 1) := by
  have distance : 2 ^ (e + 1) / 2 ^ 55 = 2 ^ (e - 54) := by
    have exponent : e + 1 - 55 = e - 54 := by omega
    rw [Nat.pow_div (by omega) (by decide), exponent]
  have half : 2 ^ (e + 1) / 2 = 2 ^ e := by
    rw [Nat.pow_succ, Nat.mul_div_cancel _ (by decide)]
  rw [Nat.one_shiftLeft, distance, half, Nat.pow_succ']
  exact ⟨Nat.sub_add_cancel (Nat.pow_le_pow_right (by decide) (Nat.sub_le e 54)), rfl⟩

theorem leastPixel_add : leastPixel + 2 ^ (1073 - 54) = 2 ^ 1073 ∧ 2 * 2 ^ 1073 = one := by
  have split := @shiftLeft_split 1073 (by decide)
  simp only [Nat.reduceAdd] at split
  rw [leastPixel, one]
  exact split

theorem half_le_roundUnits_iff (x : Nat) : 2 ^ 1073 ≤ roundUnits x 1 ↔ leastPixel ≤ x := by
  have reached := @le_roundUnits_iff 1073 x (by decide)
  have split := leastPixel_add.1
  generalize 2 ^ (1073 - 54) = distance at reached split
  generalize 2 ^ 1073 = half at reached split ⊢
  omega

theorem one_le_two_mul_iff (n : Nat) : one ≤ 2 * n ↔ 2 ^ 1073 ≤ n := by
  have double := leastPixel_add.2
  generalize 2 ^ 1073 = half at double ⊢
  omega

theorem one_pos : 0 < one := by
  have positive (e : Nat) : 0 < 2 * 2 ^ e := Nat.mul_pos (by decide) (Nat.two_pow_pos e)
  exact leastPixel_add.2 ▸ positive 1073

theorem two_mul_leastPixel_le : 2 * leastPixel ≤ one := by
  obtain ⟨split, double⟩ := leastPixel_add
  generalize 2 ^ (1073 - 54) = distance at split
  generalize 2 ^ 1073 = half at split double
  omega

/-- **A dimension keeps a pixel exactly when its product with the scale rounds to a half or more.** -/
theorem one_le_scalePixels_iff {scale : Binary64} {units : Nat}
    (finite : scale.value = .finite false units) (pixels : Nat) :
    1 ≤ scalePixels pixels scale ↔ leastPixel ≤ pixels * units := by
  have positive : 0 < 2 * one := Nat.mul_pos (by decide) one_pos
  have range : 1 ≤ greatestPixels := by decide
  unfold scalePixels
  rw [finite]
  dsimp only
  calc 1 ≤ min greatestPixels ((2 * roundUnits (pixels * units) 1 + one) / (2 * one))
      ↔ 2 * one ≤ 2 * roundUnits (pixels * units) 1 + one := by
        rw [Nat.le_min, and_iff_right range, Nat.le_div_iff_mul_le positive, Nat.one_mul]
    _ ↔ 2 ^ 1073 ≤ roundUnits (pixels * units) 1 := by
        rw [Nat.two_mul one, Nat.add_le_add_iff_right, one_le_two_mul_iff]
    _ ↔ leastPixel ≤ pixels * units := half_le_roundUnits_iff _

theorem exists_units_of_isPositive {x : Binary64} (h : x.isPositive = true) :
    ∃ units, x.value = .finite false units ∧ 0 < units := by
  unfold isPositive at h
  split at h
  · rename_i units finite
    exact ⟨units, finite, of_decide_eq_true h⟩
  · exact absurd h (by decide)

end Binary64

namespace SessionConfig

open Binary64

theorem validate_eq_ok_iff {c : SessionConfig} : c.validate = .ok () ↔ c.fault? = none := by
  unfold validate
  cases c.fault? <;> simp

/-- What a valid configuration says about graphs. -/
theorem positive_of_validate {c : SessionConfig} (valid : c.validate = .ok ()) :
    1 ≤ c.graphWidth ∧ 1 ≤ c.graphHeight ∧ c.graphScale.isPositive = true := by
  have faultless := validate_eq_ok_iff.mp valid
  unfold fault? at faultless
  by_cases linesize : c.linesize < leastLinesize ∨ greatestLinesize < c.linesize
  · rw [if_pos linesize] at faultless
    exact absurd faultless (by simp)
  rw [if_neg linesize] at faultless
  by_cases empty : c.graphWidth = 0 ∨ c.graphHeight = 0
  · rw [if_pos empty] at faultless
    exact absurd faultless (by simp)
  rw [if_neg empty] at faultless
  by_cases scale : c.graphScale.isPositive = false
  · rw [if_pos scale] at faultless
    exact absurd faultless (by simp)
  exact ⟨by omega, by omega, by simpa using scale⟩

/-- **Which valid configurations export graphs with pixels.** The scale is a positive number of units,
and the graphs have a width and a height. Both are positive exactly when the lesser dimension times
the scale rounds to a half or more, which is so of every scale from a half on. -/
theorem graphExport_size {c : SessionConfig} (valid : c.validate = .ok ())
    (sized : c.graphFormat.takesPixelSize = true) :
    ∃ units width height, c.graphScale.value = .finite false units ∧ 0 < units ∧
      c.graphExport.width = some width ∧ c.graphExport.height = some height ∧
      (1 ≤ width ∧ 1 ≤ height ↔ leastPixel ≤ min c.graphWidth c.graphHeight * units) ∧
      (one ≤ 2 * units → 1 ≤ width ∧ 1 ≤ height) := by
  obtain ⟨wide, high, positive⟩ := positive_of_validate valid
  obtain ⟨units, finite, some⟩ := exists_units_of_isPositive positive
  have pixels :
      1 ≤ scalePixels c.graphWidth c.graphScale ∧ 1 ≤ scalePixels c.graphHeight c.graphScale ↔
        leastPixel ≤ min c.graphWidth c.graphHeight * units := by
    rw [one_le_scalePixels_iff finite, one_le_scalePixels_iff finite, ← Nat.mul_min_mul_right,
      Nat.le_min]
  refine ⟨units, _, _, finite, some, if_pos sized, if_pos sized, pixels, fun half => pixels.mpr ?_⟩
  have least : leastPixel ≤ units := by
    have bound := two_mul_leastPixel_le
    omega
  calc leastPixel ≤ 1 * units := by rwa [Nat.one_mul]
    _ ≤ min c.graphWidth c.graphHeight * units :=
      Nat.mul_le_mul_right units (Nat.le_min.mpr ⟨wide, high⟩)

/-- A graph three pixels high keeps one of them at a sixth, although the number for a sixth is less than
one. -/
theorem graphExport_size_sixth :
    let c := { SessionConfig.default with graphHeight := 3, graphScale := ⟨0x3FC5555555555555⟩ }
    let units := 0x15555555555555 <<< 1019
    c.validate = .ok () ∧ c.graphFormat.takesPixelSize = true ∧
      c.graphScale.value = .finite false units ∧ 6 * units < one ∧
      leastPixel ≤ min c.graphWidth c.graphHeight * units ∧
      ∃ width height, c.graphExport.width = some width ∧ c.graphExport.height = some height ∧
        1 ≤ width ∧ 1 ≤ height := by
  intro c units
  have valid : c.validate = .ok () := validate_eq_ok_iff.mpr (by decide +kernel)
  have value : c.graphScale.value = .finite false units := by decide +kernel
  have enough : leastPixel ≤ min c.graphWidth c.graphHeight * units := by decide +kernel
  obtain ⟨units', width, height, finite, -, wide, high, pixels, -⟩ := graphExport_size valid rfl
  obtain rfl : units = units' := (Value.finite.inj (value.symm.trans finite)).2
  exact ⟨valid, rfl, value, by decide +kernel, enough, width, height, wide, high, pixels.mpr enough⟩

/-- Of a graph of the default size, a valid scale of five ten-thousandths leaves nothing. -/
theorem graphExport_empty :
    let c := { SessionConfig.default with graphScale := ⟨0x3F40624DD2F1A9FC⟩ }
    c.validate = .ok () ∧ c.graphFormat.takesPixelSize = true ∧
      c.graphExport.width = some 0 ∧ c.graphExport.height = some 0 := by
  intro c
  exact ⟨validate_eq_ok_iff.mpr (by decide +kernel), rfl, by decide +kernel, by decide +kernel⟩

end SessionConfig

end DoRunner
