import Palette.Proofs.Color.Hsl

/-!
# The colour wheel

The conversion can be undone.  Luminance and saturation tell the chroma, which is the
distance of the greatest channel from the least one.  The hue tells the sector of the colour
wheel, and the place on it: around each of its three main channels it leans toward one of the
other two, which is as far from the least channel as the hue leans.
-/

namespace Palette
namespace Hsl

/-!
# Shares
-/

/-- The shares of a chroma on the sectors of the wheel, which are numbered from zero. -/
def sector (n : Int) (chroma second : Rat) : Rat × Rat × Rat :=
  match n with
  | 0 => (chroma, second, 0)
  | 1 => (second, chroma, 0)
  | 2 => (0, chroma, second)
  | 3 => (0, second, chroma)
  | 4 => (second, 0, chroma)
  | _ => (chroma, 0, second)

def wheel (t chroma : Rat) : Rat × Rat × Rat :=
  sector ⌊t⌋ chroma (chroma * (1 - |remainder t 2 - 1|))

/-- The fractions of the channels that have a hue, a saturation and a luminance. -/
def toUnits (x : Hsl Rat) : Rat × Rat × Rat :=
  let chroma := (1 - |2 * x.luminance - 1|) * x.saturation
  let base := x.luminance - chroma / 2
  let shares := wheel (x.hue / 60) chroma
  (shares.1 + base, shares.2.1 + base, shares.2.2 + base)

section Around

variable {s t : Rat} {k : Int} (ht : t = 2 * k + s) (hlow : -1 ≤ s) (hhigh : s ≤ 1)

include ht hlow hhigh

theorem second_around : 1 - |remainder t 2 - 1| = |s| := by
  by_cases hneg : s < 0
  · have hfloor : ⌊t / 2⌋ = k - 1 := by
      rw [Int.floor_eq_iff]
      push_cast
      constructor
      · linarith
      · linarith
    rw [remainder_of_floor hfloor, abs_of_neg hneg, ht]
    push_cast
    rw [abs_of_nonneg (by linarith)]
    ring
  · have hfloor : ⌊t / 2⌋ = k := by
      rw [Int.floor_eq_iff]
      constructor
      · linarith
      · linarith
    rw [remainder_of_floor hfloor, abs_of_nonneg (not_lt.mp hneg), ht,
      abs_of_nonpos (by linarith)]
    ring

theorem floor_around :
    (s < 0 ∧ ⌊t⌋ = 2 * k - 1) ∨ (0 ≤ s ∧ ⌊t⌋ = 2 * k) ∨ (s = 1 ∧ ⌊t⌋ = 2 * k + 1) := by
  rcases lt_or_eq_of_le hhigh with hlt | heq
  · by_cases hneg : s < 0
    · refine Or.inl ⟨hneg, ?_⟩
      rw [Int.floor_eq_iff]
      push_cast
      constructor
      · linarith
      · linarith
    · refine Or.inr (Or.inl ⟨not_lt.mp hneg, ?_⟩)
      rw [Int.floor_eq_iff]
      push_cast
      constructor
      · linarith
      · linarith
  · refine Or.inr (Or.inr ⟨heq, ?_⟩)
    rw [Int.floor_eq_iff]
    push_cast
    constructor
    · linarith
    · linarith

end Around

/-- The share of a channel next to the main one, if the hue leans toward it by `s`. -/
def toward (s chroma : Rat) : Rat :=
  chroma * max s 0

theorem toward_of_nonneg {s : Rat} (h : 0 ≤ s) (chroma : Rat) : toward s chroma = chroma * |s| := by
  rw [toward, max_eq_left h, abs_of_nonneg h]

theorem toward_of_nonpos {s : Rat} (h : s ≤ 0) (chroma : Rat) : toward s chroma = 0 := by
  rw [toward, max_eq_right h, mul_zero]

/-- Moves the shares of red, green and blue on by thirds of a turn. -/
def turned (k : Int) (shares : Rat × Rat × Rat) : Rat × Rat × Rat :=
  match k with
  | 1 => (shares.2.2, shares.1, shares.2.1)
  | 2 => (shares.2.1, shares.2.2, shares.1)
  | _ => shares

theorem wheel_around {s t : Rat} {k : Int} (hk : k = 0 ∨ k = 1 ∨ k = 2) (ht : t = 2 * k + s)
    (hlow : -1 ≤ s) (hhigh : s ≤ 1) (c : Rat) :
    wheel t c = turned k (c, toward s c, toward (-s) c) := by
  rw [wheel, second_around ht hlow hhigh]
  rcases floor_around ht hlow hhigh with ⟨h, hf⟩ | ⟨h, hf⟩ | ⟨h, hf⟩
  · rw [hf, toward_of_nonpos h.le, toward_of_nonneg (neg_nonneg.mpr h.le), abs_neg]
    rcases hk with rfl | rfl | rfl <;> rfl
  · rw [hf, toward_of_nonneg h, toward_of_nonpos (neg_nonpos.mpr h)]
    rcases hk with rfl | rfl | rfl <;> rfl
  · have hpos : 0 ≤ s := by linarith
    rw [hf, toward_of_nonneg hpos, toward_of_nonpos (neg_nonpos.mpr hpos), h, abs_one, mul_one]
    rcases hk with rfl | rfl | rfl <;> rfl

theorem remainder_add_turns (x : Rat) (n : Int) {d : Rat} (h : d ≠ 0) :
    remainder (x + n * d) d = remainder x d := by
  rw [remainder, add_div, mul_div_cancel_right₀ _ h, Int.floor_add_intCast, remainder]
  push_cast
  ring

theorem wheel_add_turn {t : Rat} (hlow : -1 ≤ t) (hneg : t < 0) (c : Rat) :
    wheel (t + 6) c = wheel t c := by
  have hfirst : ⌊t⌋ = -1 := by
    rw [Int.floor_eq_iff]
    push_cast
    constructor
    · linarith
    · linarith
  have hturn : remainder (t + 6) 2 = remainder t 2 := by
    rw [← remainder_add_turns t 3 two_ne_zero]
    norm_num
  rw [wheel, wheel, hturn, Int.floor_add_ofNat, hfirst]
  rfl

/-!
# The inverse
-/

theorem toward_slope {y z low delta : Rat} (hpos : 0 < delta) (h : min y z = low) :
    toward ((y - z) / delta) delta = y - low := by
  rw [toward, mul_max_of_nonneg _ _ hpos.le, mul_div_cancel₀ _ hpos.ne', mul_zero, ← h]
  rcases le_total y z with hle | hle
  · rw [max_eq_right (sub_nonpos.mpr hle), min_eq_left hle, sub_self]
  · rw [max_eq_left (sub_nonneg.mpr hle), min_eq_right hle]

theorem slope_bounds {y z low high : Rat} (hlt : low < high) (hy : low ≤ y ∧ y ≤ high)
    (hz : low ≤ z ∧ z ≤ high) : -1 ≤ (y - z) / (high - low) ∧ (y - z) / (high - low) ≤ 1 := by
  have hpos : 0 < high - low := sub_pos.mpr hlt
  rw [le_div_iff₀ hpos, div_le_one hpos]
  constructor
  · linarith [hy.left, hz.right]
  · linarith [hy.right, hz.left]

theorem wheel_slope {k : Int} {y z low high : Rat} (hk : k = 0 ∨ k = 1 ∨ k = 2)
    (hlt : low < high) (hy : low ≤ y ∧ y ≤ high) (hz : low ≤ z ∧ z ≤ high)
    (hlow : min y z = low) :
    wheel (2 * k + (y - z) / (high - low)) (high - low) =
      turned k (high - low, y - low, z - low) := by
  have hpos : 0 < high - low := sub_pos.mpr hlt
  rcases slope_bounds hlt hy hz with ⟨hmin, hmax⟩
  rw [wheel_around hk rfl hmin hmax, ← neg_div, neg_sub, toward_slope hpos hlow,
    toward_slope hpos ((min_comm z y).trans hlow)]

section Place

variable (r g b : Rat)

theorem least_of_red (h : greatest r g b = r) : min g b = least r g b := by
  have hg := (le_greatest r g b).right.left
  rw [h] at hg
  rw [least, min_assoc, min_eq_right (le_trans (min_le_left g b) hg)]

theorem least_of_green (h : greatest r g b = g) : min b r = least r g b := by
  have hr := (le_greatest r g b).left
  rw [h] at hr
  rw [least, min_eq_left hr, min_comm]

theorem least_of_blue (h : greatest r g b = b) : min r g = least r g b := by
  have hr := (le_greatest r g b).left
  rw [h] at hr
  rw [least, min_eq_left (le_trans (min_le_left r g) hr)]

variable {r g b : Rat} (hlt : least r g b < greatest r g b)

include hlt

theorem place_bounds : -1 ≤ place r g b ∧ place r g b ≤ 5 := by
  rcases le_greatest r g b with ⟨hr, hg, hb⟩
  rcases least_le r g b with ⟨hr', hg', hb'⟩
  rcases slope_bounds hlt ⟨hg', hg⟩ ⟨hb', hb⟩ with ⟨hred, hred'⟩
  rcases slope_bounds hlt ⟨hb', hb⟩ ⟨hr', hr⟩ with ⟨hgreen, hgreen'⟩
  rcases slope_bounds hlt ⟨hr', hr⟩ ⟨hg', hg⟩ with ⟨hblue, hblue'⟩
  rw [place]
  split
  · constructor <;> linarith
  · split
    · constructor <;> linarith
    · constructor <;> linarith

theorem wheel_place :
    wheel (place r g b) (greatest r g b - least r g b) =
      (r - least r g b, g - least r g b, b - least r g b) := by
  rcases le_greatest r g b with ⟨hr, hg, hb⟩
  rcases least_le r g b with ⟨hr', hg', hb'⟩
  rw [place]
  by_cases hred : greatest r g b = r
  · have hslope := wheel_slope (Or.inl rfl) hlt ⟨hg', hg⟩ ⟨hb', hb⟩ (least_of_red r g b hred)
    rw [if_pos hred]
    rw [Int.cast_zero, mul_zero, zero_add] at hslope
    rw [hslope, hred]
    rfl
  · rw [if_neg hred]
    by_cases hgreen : greatest r g b = g
    · have hslope := wheel_slope (Or.inr (Or.inl rfl)) hlt ⟨hb', hb⟩ ⟨hr', hr⟩
        (least_of_green r g b hgreen)
      rw [if_pos hgreen]
      rw [Int.cast_one, mul_one] at hslope
      rw [hslope, hgreen]
      rfl
    · have hblue := ((greatest_eq r g b).resolve_left hred).resolve_left hgreen
      have hslope := wheel_slope (Or.inr (Or.inr rfl)) hlt ⟨hr', hr⟩ ⟨hg', hg⟩
        (least_of_blue r g b hblue)
      rw [if_neg hgreen]
      norm_num at hslope
      rw [hslope, hblue]
      rfl

end Place

theorem hue_bounds {t : Rat} (hlow : -1 ≤ t) (hhigh : t ≤ 5) :
    0 ≤ wrapHue (t * 60) ∧ wrapHue (t * 60) < 360 := by
  rw [wrapHue_eq_remainder (by linarith) (by linarith)]
  exact ⟨remainder_nonneg _ (by norm_num), remainder_lt _ (by norm_num)⟩

theorem wheel_hue {t : Rat} (hlow : -1 ≤ t) (c : Rat) :
    wheel (wrapHue (t * 60) / 60) c = wheel t c := by
  rcases lt_or_ge t 0 with hneg | hpos
  · rw [wrapHue_of_neg (by linarith), ← wheel_add_turn hlow hneg]
    congr 1
    ring
  · rw [wrapHue_of_nonneg (by linarith)]
    congr 1
    ring

theorem toUnits_ofUnits {r g b : Rat} (hlow : 0 ≤ least r g b) (hhigh : greatest r g b ≤ 1) :
    toUnits (ofUnits r g b) = (r, g, b) := by
  by_cases h : greatest r g b = least r g b
  · rcases (greatest_eq_least_iff r g b).mp h with ⟨rfl, rfl⟩
    have hr : greatest r r r = r := by rw [greatest, max_self, max_self]
    rw [ofUnits_of_eq h, ← h, hr]
    simp [toUnits, wheel, sector]
  · have hlt := lt_of_le_of_ne (least_le_greatest r g b) (Ne.symm h)
    have hbase : (greatest r g b + least r g b) / 2 - (greatest r g b - least r g b) / 2 =
        least r g b := by
      ring
    rw [ofUnits_of_ne h]
    simp only [toUnits, chroma_eq hlow hlt hhigh, wheel_hue (place_bounds hlt).left,
      wheel_place hlt, hbase, sub_add_cancel]

/-!
# Ranges
-/

structure InRange (x : Hsl Rat) : Prop where
  hue : 0 ≤ x.hue ∧ x.hue < 360
  saturation : 0 ≤ x.saturation ∧ x.saturation ≤ 1
  luminance : 0 ≤ x.luminance ∧ x.luminance ≤ 1

theorem inRange_ofUnits {r g b : Rat} (hlow : 0 ≤ least r g b) (hhigh : greatest r g b ≤ 1) :
    InRange (ofUnits r g b) := by
  have hle := least_le_greatest r g b
  have hluminance : 0 ≤ (greatest r g b + least r g b) / 2 ∧
      (greatest r g b + least r g b) / 2 ≤ 1 := by
    constructor <;> linarith
  by_cases h : greatest r g b = least r g b
  · rw [ofUnits_of_eq h]
    exact ⟨⟨le_refl 0, by norm_num⟩, ⟨le_refl 0, zero_le_one⟩, hluminance⟩
  · have hlt := lt_of_le_of_ne hle (Ne.symm h)
    rcases place_bounds hlt with ⟨hmin, hmax⟩
    rw [ofUnits_of_ne h]
    exact ⟨hue_bounds hmin hmax,
      ⟨(saturationOf_pos hlow hlt hhigh).le, saturationOf_le_one hlow hlt hhigh⟩, hluminance⟩

theorem saturation_ofUnits_eq_zero_iff {r g b : Rat} (hlow : 0 ≤ least r g b)
    (hhigh : greatest r g b ≤ 1) : (ofUnits r g b).saturation = 0 <-> r = g ∧ g = b := by
  rw [← greatest_eq_least_iff]
  by_cases h : greatest r g b = least r g b
  · rw [ofUnits_of_eq h]
    exact iff_of_true rfl h
  · have hlt := lt_of_le_of_ne (least_le_greatest r g b) (Ne.symm h)
    rw [ofUnits_of_ne h]
    exact iff_of_false (saturationOf_pos hlow hlt hhigh).ne' h

theorem hue_ofUnits_of_grey (r : Rat) : (ofUnits r r r).hue = 0 := by
  rw [ofUnits_of_eq ((greatest_eq_least_iff r r r).mpr ⟨rfl, rfl⟩)]

theorem toUnits_ofChannels {c : Rat × Rat × Rat} (h : ChannelsInRange c) :
    toUnits (ofChannels c) = (c.1 / 255, c.2.1 / 255, c.2.2 / 255) :=
  toUnits_ofUnits (least_unit_nonneg h) (greatest_unit_le_one h)

theorem inRange_ofChannels {c : Rat × Rat × Rat} (h : ChannelsInRange c) :
    InRange (ofChannels c) :=
  inRange_ofUnits (least_unit_nonneg h) (greatest_unit_le_one h)

theorem ofChannels_injective {c d : Rat × Rat × Rat} (hc : ChannelsInRange c)
    (hd : ChannelsInRange d) (h : ofChannels c = ofChannels d) : c = d := by
  have hunits := congrArg toUnits h
  rw [toUnits_ofChannels hc, toUnits_ofChannels hd] at hunits
  injection hunits with hred hrest
  injection hrest with hgreen hblue
  have hne : (255 : Rat) ≠ 0 := by norm_num
  rw [div_left_inj' hne] at hred hgreen hblue
  exact Prod.ext hred (Prod.ext hgreen hblue)

/-!
# Colours
-/

def channels (ν : Type) [Scalar ν] (c : Rgb) : ν × ν × ν :=
  (Scalar.ofNat c.red.val, Scalar.ofNat c.green.val, Scalar.ofNat c.blue.val)

theorem ofRgb_eq_ofChannels {ν : Type} [Scalar ν] (c : Rgb) :
    (ofRgb c : Hsl ν) = ofChannels (channels ν c) :=
  rfl

theorem byte_inRange (b : Byte) : (0 : Rat) ≤ (Scalar.ofNat b.val : Rat) ∧
    (Scalar.ofNat b.val : Rat) ≤ 255 := by
  have hle : b.val ≤ 255 := Nat.le_of_lt_succ b.isLt
  refine ⟨Nat.cast_nonneg _, ?_⟩
  show (b.val : Rat) ≤ 255
  exact_mod_cast hle

theorem channels_inRange (c : Rgb) : ChannelsInRange (channels Rat c) :=
  ⟨byte_inRange c.red, byte_inRange c.green, byte_inRange c.blue⟩

theorem inRange_ofRgb (c : Rgb) : InRange (ofRgb c) := by
  rw [ofRgb_eq_ofChannels]
  exact inRange_ofChannels (channels_inRange c)

theorem channels_injective {c d : Rgb} (h : channels Rat c = channels Rat d) : c = d := by
  have hbyte : forall {x y : Byte}, (Scalar.ofNat x.val : Rat) = Scalar.ofNat y.val -> x = y :=
    fun heq => Fin.ext (Nat.cast_injective heq)
  injection h with hred hrest
  injection hrest with hgreen hblue
  cases c
  cases d
  rw [Rgb.mk.injEq]
  exact ⟨hbyte hred, hbyte hgreen, hbyte hblue⟩

theorem ofRgb_of (c : Rgb) : (ofRgb c : Hsl Exact) = (ofRgb c : Hsl Rat).map Exact.of := by
  rw [ofRgb_eq_ofChannels, ofRgb_eq_ofChannels, ← ofChannels_of (channels_inRange c)]
  rfl

/-- The conversion is exact and can be undone.  For channels in range no divisor is zero,
the result is in range, only greys have saturation zero, and the channels come back; so two
colours never have the same conversion. -/
theorem ofChannels_is_exact_and_invertible :
    (forall c : Rat × Rat × Rat, ChannelsInRange c ->
      ofChannels (Exact.of c.1, Exact.of c.2.1, Exact.of c.2.2) =
          (ofChannels c).map Exact.of ∧
        InRange (ofChannels c) ∧
        ((ofChannels c).saturation = 0 <-> c.1 = c.2.1 ∧ c.2.1 = c.2.2) ∧
        ((ofChannels c).saturation = 0 -> (ofChannels c).hue = 0) ∧
        toUnits (ofChannels c) = (c.1 / 255, c.2.1 / 255, c.2.2 / 255)) ∧
      (forall c : Rgb, ChannelsInRange (channels Rat c) ∧
        (ofRgb c : Hsl Rat) = ofChannels (channels Rat c) ∧
        (ofRgb c : Hsl Exact) = (ofRgb c : Hsl Rat).map Exact.of) ∧
      (forall c d : Rat × Rat × Rat, ChannelsInRange c -> ChannelsInRange d ->
        ofChannels c = ofChannels d -> c = d) ∧
      forall c d : Rgb, (ofRgb c : Hsl Rat) = ofRgb d -> c = d := by
  refine ⟨?_, ?_, fun c d => ofChannels_injective, ?_⟩
  · intro c h
    have hlow := least_unit_nonneg h
    have hhigh := greatest_unit_le_one h
    have hgrey := saturation_ofUnits_eq_zero_iff hlow hhigh
    refine ⟨ofChannels_of h, inRange_ofChannels h, ?_, ?_, toUnits_ofChannels h⟩
    · have hne : (255 : Rat) ≠ 0 := by norm_num
      rw [div_left_inj' hne, div_left_inj' hne] at hgrey
      exact hgrey
    · intro hzero
      rcases hgrey.mp hzero with ⟨hrg, hgb⟩
      have hhue := hue_ofUnits_of_grey (c.1 / 255)
      rw [ofChannels]
      show (ofUnits (c.1 / 255) (c.2.1 / 255) (c.2.2 / 255)).hue = 0
      rw [← hgb, ← hrg]
      exact hhue
  · intro c
    exact ⟨channels_inRange c, ofRgb_eq_ofChannels c, ofRgb_of c⟩
  · intro c d h
    exact channels_injective (ofChannels_injective (channels_inRange c) (channels_inRange d) h)

theorem ofChannels_is_exact_and_invertible_of_rose :
    ChannelsInRange (255, 0, 255 / 2) ∧
      (ofChannels (255, 0, 255 / 2) : Hsl Rat).hue = 330 ∧
      toUnits (ofChannels (255, 0, 255 / 2)) = (255 / 255, 0 / 255, 255 / 2 / 255) := by
  have h : ChannelsInRange (255, 0, 255 / 2) := by
    constructor <;> norm_num
  exact ⟨h, by decide +kernel,
    (ofChannels_is_exact_and_invertible.left _ h).right.right.right.right⟩

end Hsl
end Palette
