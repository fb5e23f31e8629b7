import Mathlib.Algebra.Order.Field.Rat
import Mathlib.Tactic.NormNum
import Palette.Number.Scalar

/-!
# Rounding once

A number that was rounded to whole hundredths is one of them, so that nothing is left to round when
it is printed with two decimals: it has the text of the number that it was made from.
-/

namespace Palette

theorem roundHalfEven_mul (n : Nat) {d : Nat} (h : 0 < d) : roundHalfEven (n * d) d = n := by
  rw [roundHalfEven, Nat.mul_mod_left, Nat.mul_div_cancel n h]
  exact if_pos h

theorem hundred_mul_num_natAbs (n : Nat) :
    100 * ((n : Rat) / 100).num.natAbs = n * ((n : Rat) / 100).den := by
  have hnonneg : (0 : Rat) ≤ (n : Rat) / 100 := div_nonneg (Nat.cast_nonneg n) (by norm_num)
  have habs : (((n : Rat) / 100).num.natAbs : Int) = ((n : Rat) / 100).num :=
    Int.natAbs_of_nonneg (Rat.num_nonneg.mpr hnonneg)
  have hvalue : (100 : Rat) * ((n : Rat) / 100).num = n * ((n : Rat) / 100).den := by
    rw [← Rat.mul_den_eq_num, ← mul_assoc, mul_div_cancel₀ (n : Rat) (by norm_num)]
  rw [← Int.natCast_inj, Int.natCast_mul, Int.natCast_mul, habs]
  exact_mod_cast hvalue

theorem hundredths_of_hundredths (n : Nat) :
    Magnitude.hundredths ((n : Rat) / 100).num.natAbs ((n : Rat) / 100).den = n := by
  rw [Magnitude.hundredths, hundred_mul_num_natAbs, roundHalfEven_mul n (Rat.den_pos _)]

namespace Scalar

theorem twoDecimals_of_nonneg {x : Rat} (h : 0 ≤ x) :
    twoDecimals x = Magnitude.hundredthsText (Magnitude.hundredths x.num.natAbs x.den) := by
  have hsign : decide (x < 0) = false := decide_eq_false (not_lt.mpr h)
  show Magnitude.signText (decide (x < 0)) ++ _ = _
  rw [hsign]
  rfl

theorem roundHundredths_of_nonneg {x : Rat} (h : 0 ≤ x) :
    roundHundredths x = (Magnitude.hundredths x.num.natAbs x.den : Rat) / 100 := by
  have hsign : decide (x < 0) = false := decide_eq_false (not_lt.mpr h)
  show (if decide (x < 0) = true then _ else _) = _
  rw [hsign]
  rfl

/-- A number that was rounded has the text of the number itself. -/
theorem twoDecimals_roundHundredths {x : Rat} (h : 0 ≤ x) :
    twoDecimals (roundHundredths x) = twoDecimals x := by
  have hnonneg : (0 : Rat) ≤ (Magnitude.hundredths x.num.natAbs x.den : Rat) / 100 :=
    div_nonneg (Nat.cast_nonneg _) (by norm_num)
  rw [roundHundredths_of_nonneg h, twoDecimals_of_nonneg hnonneg, hundredths_of_hundredths,
    twoDecimals_of_nonneg h]

end Scalar
end Palette
