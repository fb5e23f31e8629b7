import Palette.Color.HslTable
import Palette.Proofs.Color.Hsl

/-!
# Columns cell by cell

Every column of a conversion of an array is the image of the array under a function of a
single cell: a mask selects the cells that satisfy a predicate, and what is scattered goes
back to just these.  So the cells do not affect each other, in whatever scalars, and it is
enough to compare the functions of a cell with the conversion of three channels.
-/

namespace Palette

/-!
# Images of a list
-/

namespace Column

theorem zipWith_map_map (f : β → γ → δ) (g : α → β) (h : α → γ) (cells : List α) :
    List.zipWith f (cells.map g) (cells.map h) = cells.map fun c => f (g c) (h c) := by
  rw [List.zipWith_map, List.zipWith_self]

theorem both_map (p q : α → Bool) (cells : List α) :
    both (cells.map p) (cells.map q) = cells.map fun c => p c && q c :=
  zipWith_map_map (· && ·) p q cells

theorem without_map (p q : α → Bool) (cells : List α) :
    without (cells.map p) (cells.map q) = cells.map fun c => p c && !q c :=
  zipWith_map_map (fun a b => a && !b) p q cells

theorem select_map (p : α → Bool) (f : α → β) (cells : List α) :
    select (cells.map p) (cells.map f) = (cells.filter p).map f := by
  induction cells with
  | nil =>
      rfl
  | cons c rest ih =>
      rw [List.map_cons, List.map_cons]
      cases hp : p c with
      | false =>
          rw [select, ih, List.filter_cons, hp, if_neg Bool.false_ne_true]
      | true =>
          rw [select, ih, List.filter_cons, hp, if_pos rfl, List.map_cons]

theorem scatter_map (p : α → Bool) (f g : α → β) (cells : List α) :
    scatter (cells.map p) ((cells.filter p).map f) (cells.map g) =
      cells.map fun c => if p c then f c else g c := by
  induction cells with
  | nil =>
      rfl
  | cons c rest ih =>
      rw [List.map_cons, List.map_cons, List.map_cons]
      cases hp : p c with
      | false =>
          rw [List.filter_cons, hp, if_neg Bool.false_ne_true, scatter, ih]
          rfl
      | true =>
          rw [List.filter_cons, hp, if_pos rfl, List.map_cons, scatter, ih]
          rfl

theorem zipHsl_map {ν : Type} (h s l : α → ν) (cells : List α) :
    zipHsl (cells.map h) (cells.map s) (cells.map l) = cells.map fun c => ⟨h c, s c, l c⟩ := by
  induction cells with
  | nil =>
      rfl
  | cons c rest ih =>
      rw [List.map_cons, List.map_cons, List.map_cons, zipHsl, ih, List.map_cons]

end Column

/-!
# Functions of a cell
-/

namespace Cell

open Scalar

variable {ν : Type} [Scalar ν] (c : ν × ν × ν)

def red : ν :=
  c.1 / ofNat 255

def green : ν :=
  c.2.1 / ofNat 255

def blue : ν :=
  c.2.2 / ofNat 255

def high : ν :=
  greater (greater (red c) (green c)) (blue c)

def low : ν :=
  lesser (lesser (red c) (green c)) (blue c)

def delta : ν :=
  high c - low c

def luminance : ν :=
  (high c + low c) / ofNat 2

def chromatic : Bool :=
  less (ofNat 0) (delta c)

def dark : Bool :=
  chromatic c && atMost (luminance c) (ofNat 1 / ofNat 2)

def light : Bool :=
  chromatic c && less (ofNat 1 / ofNat 2) (luminance c)

def atRed : Bool :=
  chromatic c && equal (high c) (red c)

def atGreen : Bool :=
  (chromatic c && !atRed c) && equal (high c) (green c)

def atBlue : Bool :=
  (chromatic c && !atRed c) && !atGreen c

def saturation : ν :=
  if light c then delta c / (ofNat 2 - high c - low c)
  else if dark c then delta c / (high c + low c)
  else ofNat 0

def place : ν :=
  if atBlue c then ofNat 4 + (red c - green c) / delta c
  else if atGreen c then ofNat 2 + (blue c - red c) / delta c
  else if atRed c then (green c - blue c) / delta c
  else ofNat 0

def toHsl : Hsl ν :=
  ⟨Hsl.wrapHue (place c * ofNat 60), saturation c, luminance c⟩

end Cell

/-!
# Columns of an array
-/

namespace Planes

open Column Scalar

variable {ν : Type} [Scalar ν] (cells : List (ν × ν × ν))

theorem high_ofChannels : (ofChannels cells).high = cells.map Cell.high := by
  simp only [high, ofChannels, zipWith_map_map]
  rfl

theorem low_ofChannels : (ofChannels cells).low = cells.map Cell.low := by
  simp only [low, ofChannels, zipWith_map_map]
  rfl

theorem delta_ofChannels : (ofChannels cells).delta = cells.map Cell.delta := by
  rw [delta, high_ofChannels, low_ofChannels, zipWith_map_map]
  rfl

theorem luminance_ofChannels : (ofChannels cells).luminance = cells.map Cell.luminance := by
  rw [luminance, high_ofChannels, low_ofChannels, zipWith_map_map]
  rfl

theorem chromatic_ofChannels : (ofChannels cells).chromatic = cells.map Cell.chromatic := by
  rw [chromatic, delta_ofChannels, List.map_map]
  rfl

theorem dark_ofChannels : (ofChannels cells).dark = cells.map Cell.dark := by
  rw [dark, chromatic_ofChannels, luminance_ofChannels, List.map_map, both_map]
  rfl

theorem light_ofChannels : (ofChannels cells).light = cells.map Cell.light := by
  rw [light, chromatic_ofChannels, luminance_ofChannels, List.map_map, both_map]
  rfl

theorem atRed_ofChannels : (ofChannels cells).atRed = cells.map Cell.atRed := by
  rw [atRed, chromatic_ofChannels, high_ofChannels, ofChannels, zipWith_map_map, both_map]
  rfl

theorem atGreen_ofChannels : (ofChannels cells).atGreen = cells.map Cell.atGreen := by
  rw [atGreen, chromatic_ofChannels, atRed_ofChannels, high_ofChannels, ofChannels,
    zipWith_map_map, without_map, both_map]
  rfl

theorem atBlue_ofChannels : (ofChannels cells).atBlue = cells.map Cell.atBlue := by
  rw [atBlue, chromatic_ofChannels, atRed_ofChannels, atGreen_ofChannels, without_map,
    without_map]
  rfl

theorem slopes_ofChannels (mask : ν × ν × ν → Bool) (x y : ν × ν × ν → ν) :
    (ofChannels cells).slopes (cells.map mask) (cells.map x) (cells.map y) =
      (cells.filter mask).map fun c => (x c - y c) / Cell.delta c := by
  rw [slopes, delta_ofChannels, select_map, select_map, select_map, zipWith_map_map,
    zipWith_map_map]

theorem saturation_ofChannels : (ofChannels cells).saturation = cells.map Cell.saturation := by
  simp only [saturation, dark_ofChannels, light_ofChannels, delta_ofChannels, high_ofChannels,
    low_ofChannels, luminance_ofChannels, select_map, zipWith_map_map, List.map_map, scatter_map]
  rfl

theorem hue_ofChannels :
    (ofChannels cells).hue = cells.map fun c => Hsl.wrapHue (Cell.place c * ofNat 60) := by
  have hred : (ofChannels cells).red = cells.map Cell.red := rfl
  have hgreen : (ofChannels cells).green = cells.map Cell.green := rfl
  have hblue : (ofChannels cells).blue = cells.map Cell.blue := rfl
  simp only [hue, atRed_ofChannels, atGreen_ofChannels, atBlue_ofChannels, high_ofChannels,
    hred, hgreen, hblue, slopes_ofChannels, List.map_map, scatter_map]
  rfl

theorem toHsl_ofChannels : (ofChannels cells).toHsl = cells.map Cell.toHsl := by
  rw [toHsl, hue_ofChannels, saturation_ofChannels, luminance_ofChannels, zipHsl_map]
  rfl

end Planes

/-!
# Cases of a cell
-/

namespace Cell

open Scalar

section Cases

variable {ν : Type} [Scalar ν] (c : ν × ν × ν)

theorem count_hue_cases : [!chromatic c, atRed c, atGreen c, atBlue c].count true = 1 := by
  rw [atBlue, atGreen, atRed]
  cases chromatic c <;> cases equal (high c) (red c) <;> cases equal (high c) (green c) <;> rfl

/-- What the order of the scalars must tell of a cell for the masks to be its branches. -/
structure Separated : Prop where
  chromatic : less (ofNat 0) (delta c) = !equal (high c) (low c)
  light : less (ofNat 1 / ofNat 2) (luminance c) = !atMost (luminance c) (ofNat 1 / ofNat 2)
  zero : Hsl.wrapHue (ofNat 0 * ofNat 60) = (ofNat 0 : ν)

variable {c} (h : Separated c)

include h

theorem count_saturation_cases :
    [dark c, light c].count true = if chromatic c then 1 else 0 := by
  rw [dark, light, h.light]
  cases chromatic c <;> cases atMost (luminance c) (ofNat 1 / ofNat 2) <;> rfl

theorem saturation_of_chromatic (hchromatic : Cell.chromatic c = true) :
    saturation c =
      if atMost (luminance c) (ofNat 1 / ofNat 2) then delta c / (high c + low c)
      else delta c / (ofNat 2 - high c - low c) := by
  rw [saturation, light, dark, hchromatic, h.light]
  cases atMost (luminance c) (ofNat 1 / ofNat 2) <;> rfl

omit h in
theorem place_of_chromatic (hchromatic : Cell.chromatic c = true) :
    place c =
      if equal (high c) (red c) then (green c - blue c) / delta c
      else if equal (high c) (green c) then ofNat 2 + (blue c - red c) / delta c
      else ofNat 4 + (red c - green c) / delta c := by
  rw [place, atBlue, atGreen, atRed, hchromatic]
  cases equal (high c) (red c) <;> cases equal (high c) (green c) <;> rfl

theorem toHsl_eq_ofChannels : toHsl c = Hsl.ofChannels c := by
  rw [Hsl.ofChannels, Hsl.ofUnits, toHsl]
  change _ = if equal (high c) (low c) then _ else _
  cases hgrey : equal (high c) (low c) with
  | true =>
      have hchromatic : Cell.chromatic c = false := by
        rw [Cell.chromatic, h.chromatic, hgrey]
        rfl
      have hplace : place c = ofNat 0 := by
        rw [place, atBlue, atGreen, atRed, hchromatic]
        rfl
      have hsaturation : saturation c = ofNat 0 := by
        rw [saturation, light, dark, hchromatic]
        rfl
      rw [hplace, hsaturation, h.zero]
      rfl
  | false =>
      have hchromatic : Cell.chromatic c = true := by
        rw [Cell.chromatic, h.chromatic, hgrey]
        rfl
      rw [place_of_chromatic hchromatic, saturation_of_chromatic h hchromatic]
      rfl

end Cases

/-!
# Cells of rationals
-/

theorem high_eq (c : Rat × Rat × Rat) :
    high c = Hsl.greatest (c.1 / 255) (c.2.1 / 255) (c.2.2 / 255) :=
  Hsl.greater_eq _ _ _

theorem low_eq (c : Rat × Rat × Rat) :
    low c = Hsl.least (c.1 / 255) (c.2.1 / 255) (c.2.2 / 255) :=
  Hsl.lesser_eq _ _ _

theorem separated (c : Rat × Rat × Rat) : Separated c where
  chromatic := by
    have hle := Hsl.least_le_greatest (c.1 / 255) (c.2.1 / 255) (c.2.2 / 255)
    rw [← high_eq, ← low_eq] at hle
    have hpos : 0 < delta c <-> high c ≠ low c :=
      sub_pos.trans ⟨ne_of_gt, fun hne => lt_of_le_of_ne hle hne.symm⟩
    rw [Bool.eq_iff_iff, Bool.not_eq_true', Bool.eq_false_iff, ne_eq, Hsl.equal_iff]
    exact (Hsl.less_iff 0 (delta c)).trans hpos
  light := by
    rw [Bool.eq_iff_iff, Hsl.less_iff, Bool.not_eq_true', Bool.eq_false_iff, ne_eq,
      Hsl.atMost_iff, not_le]
  zero := by
    have hzero : (ofNat 0 * ofNat 60 : Rat) = 0 := zero_mul _
    rw [hzero, Hsl.wrapHue_of_nonneg le_rfl]
    rfl

def exact (c : Rat × Rat × Rat) : Exact × Exact × Exact :=
  (.of c.1, .of c.2.1, .of c.2.2)

section Exact

variable (c : Rat × Rat × Rat)

theorem high_exact : high (exact c) = .of (high c) := by
  have hunit : forall x : Rat, Exact.of x / Scalar.ofNat 255 = Exact.of (x / ofNat 255) :=
    fun x => Exact.of_div x (by norm_num)
  simp only [high, red, green, blue, exact, hunit, Exact.greater_of]

theorem low_exact : low (exact c) = .of (low c) := by
  have hunit : forall x : Rat, Exact.of x / Scalar.ofNat 255 = Exact.of (x / ofNat 255) :=
    fun x => Exact.of_div x (by norm_num)
  simp only [low, red, green, blue, exact, hunit, Exact.lesser_of]

theorem luminance_exact : luminance (exact c) = .of (luminance c) := by
  rw [luminance, high_exact, low_exact, Exact.of_add]
  exact Exact.of_div _ two_ne_zero

theorem separated_exact : Separated (exact c) where
  chromatic := by
    rw [delta, high_exact, low_exact]
    exact (separated c).chromatic
  light := by
    have hhalf : (ofNat 1 / ofNat 2 : Exact) = .of (ofNat 1 / ofNat 2) :=
      Exact.of_div _ two_ne_zero
    rw [luminance_exact, hhalf, Exact.less_of, Exact.atMost_of]
    exact (separated c).light
  zero := by
    have hzero : (ofNat 0 * ofNat 60 : Exact) = .of (ofNat 0 * ofNat 60) := rfl
    rw [hzero, Hsl.wrapHue_of, (separated c).zero]
    rfl

end Exact

end Cell

/-!
# Arrays
-/

namespace Grid

theorem cells_toHsl {ν : Type} [Scalar ν] (g : Grid (ν × ν × ν)) :
    g.toHsl.cells = g.cells.map Cell.toHsl :=
  Planes.toHsl_ofChannels g.cells

/-- Whether a mask picks a place of an array. -/
def picks (k : Nat) (mask : List Bool) : Bool :=
  mask[k]? = some true

theorem count_picks (masks : List (α → Bool)) {cells : List α} {k : Nat} {c : α}
    (hc : cells[k]? = some c) :
    (masks.map cells.map).countP (picks k) = (masks.map (· c)).count true := by
  rw [List.count, List.countP_map, List.countP_map]
  apply List.countP_congr
  intro mask _
  simp [picks, hc]

def exact (g : Grid (Rat × Rat × Rat)) : Grid (Exact × Exact × Exact) where
  shape := g.shape
  cells := g.cells.map Cell.exact
  size_eq := by rw [List.length_map]; exact g.size_eq

/-- The conversion of an array is that of its cells.  The masks of the hues, and with them
the greys, pick each place once; those of the saturations pick each chromatic place once.
In exact numbers the values are the same, so that no cell divides by zero. -/
theorem toHsl_is_cellwise (g : Grid (Rat × Rat × Rat))
    (h : forall c, c ∈ g.cells -> Hsl.ChannelsInRange c) :
    g.toHsl.shape = g.shape ∧
      (forall k : Nat, g.toHsl.cells[k]? = g.cells[k]?.map Hsl.ofChannels) ∧
      (forall k : Nat, g.exact.toHsl.cells[k]? =
        g.cells[k]?.map fun c => (Hsl.ofChannels c).map Exact.of) ∧
      forall k : Nat, k < g.cells.length ->
        let p := Planes.ofChannels g.cells
        [p.chromatic.map (! ·), p.atRed, p.atGreen, p.atBlue].countP (picks k) = 1 ∧
          [p.dark, p.light].countP (picks k) = if picks k p.chromatic then 1 else 0 := by
  refine ⟨rfl, ?_, ?_, ?_⟩
  · intro k
    rw [cells_toHsl, List.getElem?_map]
    congr 1
    funext c
    exact Cell.toHsl_eq_ofChannels (Cell.separated c)
  · intro k
    rw [cells_toHsl, exact, List.map_map, List.getElem?_map]
    cases hc : g.cells[k]? with
    | none =>
        rfl
    | some c =>
        have hrange := h c (List.mem_of_getElem? hc)
        rw [Option.map_some, Option.map_some, Function.comp_apply,
          Cell.toHsl_eq_ofChannels (Cell.separated_exact c)]
        exact congrArg some (Hsl.ofChannels_of hrange)
  · intro k hk p
    have hc := List.getElem?_eq_getElem hk
    have hhues := count_picks
      [fun c => !Cell.chromatic c, Cell.atRed, Cell.atGreen, Cell.atBlue] hc
    have hsaturations := count_picks [Cell.dark, Cell.light] hc
    constructor
    · rw [Planes.chromatic_ofChannels, Planes.atRed_ofChannels, Planes.atGreen_ofChannels,
        Planes.atBlue_ofChannels, List.map_map]
      exact hhues.trans (Cell.count_hue_cases _)
    · have hpicks : picks k p.chromatic = Cell.chromatic g.cells[k] := by
        rw [picks, Planes.chromatic_ofChannels, List.getElem?_map, hc]
        simp
      rw [Planes.dark_ofChannels, Planes.light_ofChannels, hpicks]
      exact hsaturations.trans (Cell.count_saturation_cases (Cell.separated _))

theorem toHsl_is_cellwise_of_ties :
    exists g : Grid (Rat × Rat × Rat),
      g.shape = [2, 2] ∧
        g.cells = [(128, 128, 128), (200, 200, 0), (0, 7, 7), (255, 0, 255 / 2)] ∧
        (forall c, c ∈ g.cells -> Hsl.ChannelsInRange c) ∧
        (Planes.ofChannels g.cells).atRed = [false, true, false, true] ∧
        g.toHsl.cells[3]? = some (Hsl.ofChannels (255, 0, 255 / 2)) := by
  have h : forall c, c ∈ [(128, 128, 128), (200, 200, 0), (0, 7, 7), (255, 0, 255 / 2)] ->
      Hsl.ChannelsInRange c := by
    simp only [List.forall_mem_cons]
    refine ⟨?_, ?_, ?_, ?_, fun c hc => absurd hc List.not_mem_nil⟩ <;>
      constructor <;> norm_num
  exact ⟨⟨[2, 2], _, rfl⟩, rfl, rfl, h, by decide +kernel,
    (toHsl_is_cellwise ⟨[2, 2], _, rfl⟩ h).right.left 3⟩

end Grid
end Palette
