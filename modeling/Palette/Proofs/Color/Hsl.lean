import Mathlib.Data.Rat.Floor
import Mathlib.Tactic.FieldSimp
import Mathlib.Tactic.Linarith
import Mathlib.Tactic.Ring
import Palette.Proofs.Color.Exact

/-!
# The conversion of rationals

In rationals the comparisons of the conversion are those of the order, so that its result can
be written down by the greatest and the least channel.  For channels in range no divisor is
ever zero: in exact numbers the conversion has the same values.
-/

namespace Palette
namespace Hsl

/-!
# Remainders
-/

/-- What is left of a number when a multiple of a positive one is taken off it. -/
def remainder (x d : Rat) : Rat :=
  x - ⌊x / d⌋ * d

theorem remainder_of_floor {x d : Rat} {k : Int} (h : ⌊x / d⌋ = k) : remainder x d = x - k * d := by
  rw [remainder, h]

theorem remainder_nonneg (x : Rat) {d : Rat} (h : 0 < d) : 0 ≤ remainder x d :=
  Int.sub_floor_div_mul_nonneg x h

theorem remainder_lt (x : Rat) {d : Rat} (h : 0 < d) : remainder x d < d :=
  Int.sub_floor_div_mul_lt x h

/-!
# Comparisons
-/

theorem less_iff (x y : Rat) : Scalar.less x y = true <-> x < y :=
  decide_eq_true_iff

theorem equal_iff (x y : Rat) : Scalar.equal x y = true <-> x = y :=
  beq_iff_eq

theorem atMost_iff (x y : Rat) : Scalar.atMost x y = true <-> x ≤ y := by
  rw [Scalar.atMost, Bool.or_eq_true, less_iff, equal_iff, le_iff_lt_or_eq]

theorem greater_eq_max (x y : Rat) : Scalar.greater x y = max x y := by
  simp only [Scalar.greater, less_iff, max_def', ← not_lt, ite_not]

theorem lesser_eq_min (x y : Rat) : Scalar.lesser x y = min x y := by
  simp only [Scalar.lesser, less_iff, min_def, ← not_lt, ite_not]

theorem wrapHue_of_neg {x : Rat} (h : x < 0) : wrapHue x = x + 360 := by
  have hless : Scalar.less x (Scalar.ofNat 0) = true := (less_iff x 0).mpr h
  rw [wrapHue, if_pos hless]
  rfl

theorem wrapHue_of_nonneg {x : Rat} (h : 0 ≤ x) : wrapHue x = x := by
  have hless : ¬Scalar.less x (Scalar.ofNat 0) = true :=
    fun hneg => not_lt.mpr h ((less_iff x 0).mp hneg)
  rw [wrapHue, if_neg hless]
  by_cases hzero : Scalar.equal x (Scalar.ofNat 0) = true
  · rw [if_pos hzero]
    exact ((equal_iff x 0).mp hzero).symm
  · exact if_neg hzero

theorem wrapHue_eq_remainder {x : Rat} (hlow : -360 ≤ x) (hhigh : x < 360) :
    wrapHue x = remainder x 360 := by
  by_cases hneg : x < 0
  · have hfloor : ⌊x / 360⌋ = -1 := by
      rw [Int.floor_eq_iff]
      push_cast
      constructor
      · linarith
      · linarith
    rw [wrapHue_of_neg hneg, remainder_of_floor hfloor]
    push_cast
    ring
  · have hfloor : ⌊x / 360⌋ = 0 := by
      rw [Int.floor_eq_iff]
      push_cast
      constructor
      · linarith
      · linarith
    rw [wrapHue_of_nonneg (not_lt.mp hneg), remainder_of_floor hfloor]
    push_cast
    ring

/-!
# The conversion of rationals
-/

def greatest (r g b : Rat) : Rat :=
  max (max r g) b

def least (r g b : Rat) : Rat :=
  min (min r g) b

theorem greater_eq (r g b : Rat) : Scalar.greater (Scalar.greater r g) b = greatest r g b := by
  rw [greatest, greater_eq_max, greater_eq_max]

theorem lesser_eq (r g b : Rat) : Scalar.lesser (Scalar.lesser r g) b = least r g b := by
  rw [least, lesser_eq_min, lesser_eq_min]

/-- The place of a hue on the colour wheel, before it is brought into one turn, with a
sector of the wheel as its unit. -/
def place (r g b : Rat) : Rat :=
  let delta := greatest r g b - least r g b
  if greatest r g b = r then (g - b) / delta
  else if greatest r g b = g then 2 + (b - r) / delta
  else 4 + (r - g) / delta

def saturationOf (high low : Rat) : Rat :=
  if (high + low) / 2 ≤ 1 / 2 then (high - low) / (high + low) else (high - low) / (2 - high - low)

theorem ofUnits_of_eq {r g b : Rat} (h : greatest r g b = least r g b) :
    ofUnits r g b = ⟨0, 0, (greatest r g b + least r g b) / 2⟩ := by
  simp only [ofUnits, greater_eq, lesser_eq, equal_iff]
  exact if_pos h

theorem ofUnits_of_ne {r g b : Rat} (h : greatest r g b ≠ least r g b) :
    ofUnits r g b =
      ⟨wrapHue (place r g b * 60), saturationOf (greatest r g b) (least r g b),
        (greatest r g b + least r g b) / 2⟩ := by
  simp only [ofUnits, greater_eq, lesser_eq, equal_iff, atMost_iff, place]
  exact if_neg h

/-!
# Bounds of channels
-/

section Bounds

variable (r g b : Rat)

theorem le_greatest : r ≤ greatest r g b ∧ g ≤ greatest r g b ∧ b ≤ greatest r g b :=
  ⟨le_max_of_le_left (le_max_left r g), le_max_of_le_left (le_max_right r g), le_max_right _ b⟩

theorem least_le : least r g b ≤ r ∧ least r g b ≤ g ∧ least r g b ≤ b :=
  ⟨min_le_of_left_le (min_le_left r g), min_le_of_left_le (min_le_right r g), min_le_right _ b⟩

theorem least_le_greatest : least r g b ≤ greatest r g b :=
  le_trans (least_le r g b).left (le_greatest r g b).left

theorem greatest_eq : greatest r g b = r ∨ greatest r g b = g ∨ greatest r g b = b := by
  rcases max_choice (max r g) b with h | h
  · rcases max_choice r g with hrg | hrg
    · exact Or.inl (h.trans hrg)
    · exact Or.inr (Or.inl (h.trans hrg))
  · exact Or.inr (Or.inr h)

theorem greatest_eq_least_iff : greatest r g b = least r g b <-> r = g ∧ g = b := by
  constructor
  · intro h
    rcases le_greatest r g b with ⟨hr, hg, hb⟩
    rcases least_le r g b with ⟨hr', hg', hb'⟩
    exact ⟨by linarith, by linarith⟩
  · rintro ⟨hrg, hgb⟩
    rw [greatest, least, hrg, hgb, max_self, max_self, min_self, min_self]

end Bounds

/-!
# Divisors
-/

section Divisors

variable {high low : Rat} (hlow : 0 ≤ low) (hlt : low < high) (hhigh : high ≤ 1)

include hlt in
theorem delta_ne_zero : high - low ≠ 0 :=
  ne_of_gt (sub_pos.mpr hlt)

include hlow hlt in
theorem sum_pos : 0 < high + low :=
  add_pos_of_pos_of_nonneg (lt_of_le_of_lt hlow hlt) hlow

include hlt hhigh in
theorem rest_pos : 0 < 2 - high - low := by
  linarith

include hlow hlt hhigh

theorem saturationOf_pos : 0 < saturationOf high low := by
  rw [saturationOf]
  split
  · exact div_pos (sub_pos.mpr hlt) (sum_pos hlow hlt)
  · exact div_pos (sub_pos.mpr hlt) (rest_pos hlt hhigh)

theorem saturationOf_le_one : saturationOf high low ≤ 1 := by
  rw [saturationOf]
  split
  · rw [div_le_one (sum_pos hlow hlt)]
    linarith
  · rw [div_le_one (rest_pos hlt hhigh)]
    linarith

theorem chroma_eq :
    (1 - |2 * ((high + low) / 2) - 1|) * saturationOf high low = high - low := by
  rw [saturationOf]
  split
  case isTrue hdark =>
    have habs : |2 * ((high + low) / 2) - 1| = 1 - (high + low) := by
      rw [abs_of_nonpos (by linarith)]
      ring
    rw [habs, sub_sub_cancel, mul_div_cancel₀ _ (ne_of_gt (sum_pos hlow hlt))]
  case isFalse hlight =>
    have habs : |2 * ((high + low) / 2) - 1| = 1 - (2 - high - low) := by
      rw [abs_of_nonneg (by linarith)]
      ring
    rw [habs, sub_sub_cancel, mul_div_cancel₀ _ (ne_of_gt (rest_pos hlt hhigh))]

end Divisors

/-!
# Exact numbers
-/

theorem wrapHue_of (x : Rat) : wrapHue (Exact.of x) = Exact.of (wrapHue x) := by
  simp only [wrapHue, Exact.ofNat_eq, Exact.less_of, Exact.equal_of, Exact.of_add,
    apply_ite Exact.of]
  rfl

theorem ofUnits_of {r g b : Rat} (hlow : 0 ≤ least r g b) (hhigh : greatest r g b ≤ 1) :
    ofUnits (Exact.of r) (Exact.of g) (Exact.of b) = (ofUnits r g b).map Exact.of := by
  have htwo : forall x : Rat, Exact.of x / Exact.of (2 : Nat) = Exact.of (x / (2 : Nat)) :=
    fun x => Exact.of_div x two_ne_zero
  by_cases h : greatest r g b = least r g b
  · rw [ofUnits_of_eq h]
    simp only [ofUnits, Exact.ofNat_eq, Exact.greater_of, Exact.lesser_of, Exact.equal_of,
      Exact.of_add, greater_eq, lesser_eq, equal_iff, htwo]
    exact if_pos h
  · have hlt := lt_of_le_of_ne (least_le_greatest r g b) (Ne.symm h)
    have hdelta : forall x : Rat, Exact.of x / Exact.of (greatest r g b - least r g b) =
        Exact.of (x / (greatest r g b - least r g b)) :=
      fun x => Exact.of_div x (delta_ne_zero hlt)
    have hsum : forall x : Rat, Exact.of x / Exact.of (greatest r g b + least r g b) =
        Exact.of (x / (greatest r g b + least r g b)) :=
      fun x => Exact.of_div x (ne_of_gt (sum_pos hlow hlt))
    have hrest : forall x : Rat,
        Exact.of x / Exact.of ((2 : Nat) - greatest r g b - least r g b) =
          Exact.of (x / ((2 : Nat) - greatest r g b - least r g b)) :=
      fun x => Exact.of_div x (ne_of_gt (rest_pos hlt hhigh))
    rw [ofUnits_of_ne h, Hsl.map, ← wrapHue_of, saturationOf, place]
    simp only [ofUnits, Exact.ofNat_eq, Exact.greater_of, Exact.lesser_of, Exact.equal_of,
      Exact.atMost_of, Exact.of_add, Exact.of_sub, Exact.of_mul, greater_eq, lesser_eq,
      equal_iff, atMost_iff, htwo, hdelta, hsum, hrest, ← apply_ite Exact.of]
    exact if_neg h

/-!
# Channels in range
-/

structure ChannelsInRange (c : Rat × Rat × Rat) : Prop where
  red : 0 ≤ c.1 ∧ c.1 ≤ 255
  green : 0 ≤ c.2.1 ∧ c.2.1 ≤ 255
  blue : 0 ≤ c.2.2 ∧ c.2.2 ≤ 255

section Channels

variable {c : Rat × Rat × Rat} (h : ChannelsInRange c)

include h

theorem least_unit_nonneg : 0 ≤ least (c.1 / 255) (c.2.1 / 255) (c.2.2 / 255) :=
  le_min (le_min (div_nonneg h.red.left (by norm_num)) (div_nonneg h.green.left (by norm_num)))
    (div_nonneg h.blue.left (by norm_num))

theorem greatest_unit_le_one : greatest (c.1 / 255) (c.2.1 / 255) (c.2.2 / 255) ≤ 1 := by
  have hunit : forall {x : Rat}, x ≤ 255 -> x / 255 ≤ 1 :=
    fun hx => (div_le_one (by norm_num)).mpr hx
  exact max_le (max_le (hunit h.red.right) (hunit h.green.right)) (hunit h.blue.right)

end Channels

theorem ofChannels_of {c : Rat × Rat × Rat} (h : ChannelsInRange c) :
    ofChannels (Exact.of c.1, Exact.of c.2.1, Exact.of c.2.2) = (ofChannels c).map Exact.of := by
  have hunit : forall x : Rat, Exact.of x / Scalar.ofNat 255 = Exact.of (x / 255) :=
    fun x => Exact.of_div x (by norm_num)
  rw [ofChannels, hunit, hunit, hunit, ofUnits_of (least_unit_nonneg h) (greatest_unit_le_one h)]
  rfl

end Hsl
end Palette
