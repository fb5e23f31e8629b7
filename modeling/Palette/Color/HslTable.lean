import Palette.Color.Hsl

/-!
# Conversion of whole arrays

An array of colours of any shape is converted column by column.  Each column is
computed for all cells at once; where the formulas of two cells differ, a mask
picks the cells that a formula is for, and its results are scattered back to
their places.
-/

namespace Palette

/-- An array of triples, listed in row-major order. -/
structure Grid (α : Type) where
  shape : List Nat
  cells : List α
  size_eq : cells.length = shape.foldr (· * ·) 1

namespace Grid

/-- The one-dimensional array of a list. -/
def ofList (cells : List α) : Grid α where
  shape := [cells.length]
  cells := cells
  size_eq := by simp

end Grid

namespace Column

/-! ## Masks -/

/-- The cells of a column that a mask picks, in order. -/
def select : List Bool → List α → List α
  | true :: mask, x :: xs => x :: select mask xs
  | false :: mask, _ :: xs => select mask xs
  | _, _ => []

/-- Writes values, in order, to the places of a column that a mask picks. -/
def scatter : List Bool → List α → List α → List α
  | true :: mask, y :: ys, _ :: xs => y :: scatter mask ys xs
  | false :: mask, ys, x :: xs => x :: scatter mask ys xs
  | _, _, xs => xs

@[simp]
theorem length_scatter (mask : List Bool) (ys xs : List α) :
    (scatter mask ys xs).length = xs.length := by
  fun_induction scatter mask ys xs with
  | case1 mask y ys x xs ih =>
      simp [ih]
  | case2 mask ys x xs ih =>
      simp [ih]
  | case3 =>
      rfl

def both (p q : List Bool) : List Bool :=
  List.zipWith (· && ·) p q

def without (p q : List Bool) : List Bool :=
  List.zipWith (fun a b => a && !b) p q

variable {ν : Type}

/-- Puts three columns side by side. -/
def zipHsl : List ν → List ν → List ν → List (Hsl ν)
  | h :: hs, s :: ss, l :: ls => ⟨h, s, l⟩ :: zipHsl hs ss ls
  | _, _, _ => []

theorem length_zipHsl {hs ss ls : List ν} {n : Nat}
    (hh : hs.length = n) (hsat : ss.length = n) (hl : ls.length = n) :
    (zipHsl hs ss ls).length = n := by
  induction hs generalizing ss ls n with
  | nil =>
      simpa [zipHsl] using hh
  | cons h hs ih =>
      cases ss with
      | nil =>
          simp at hh hsat
          omega
      | cons s ss =>
          cases ls with
          | nil =>
              simp at hh hl
              omega
          | cons l ls =>
              simp only [List.length_cons] at hh hsat hl
              simp only [zipHsl, List.length_cons]
              rw [ih rfl (by omega) (by omega)]
              exact hh

end Column

/-- The planes of an array: for each channel the fractions of all cells. -/
structure Planes (ν : Type) where
  red : List ν
  green : List ν
  blue : List ν

namespace Planes

open Column Scalar

variable {ν : Type} [Scalar ν]

/-- The planes of cells that hold channels from 0 to 255. -/
def ofChannels (cells : List (ν × ν × ν)) : Planes ν where
  red := cells.map fun c => c.1 / ofNat 255
  green := cells.map fun c => c.2.1 / ofNat 255
  blue := cells.map fun c => c.2.2 / ofNat 255

variable (p : Planes ν)

/-! ## Columns for all cells -/

def high : List ν :=
  List.zipWith greater (List.zipWith greater p.red p.green) p.blue

def low : List ν :=
  List.zipWith lesser (List.zipWith lesser p.red p.green) p.blue

def delta : List ν :=
  List.zipWith (· - ·) p.high p.low

def luminance : List ν :=
  List.zipWith (fun h l => (h + l) / ofNat 2) p.high p.low

/-! ## Cases -/

def chromatic : List Bool :=
  p.delta.map (less (ofNat 0))

def dark : List Bool :=
  both p.chromatic (p.luminance.map fun l => atMost l (ofNat 1 / ofNat 2))

def light : List Bool :=
  both p.chromatic (p.luminance.map fun l => less (ofNat 1 / ofNat 2) l)

def atRed : List Bool :=
  both p.chromatic (List.zipWith equal p.high p.red)

def atGreen : List Bool :=
  both (without p.chromatic p.atRed) (List.zipWith equal p.high p.green)

def atBlue : List Bool :=
  without (without p.chromatic p.atRed) p.atGreen

/-! ## Columns by cases -/

def saturation : List ν :=
  let grey := p.luminance.map fun _ => ofNat 0
  let withDark :=
    scatter p.dark
      (List.zipWith (· / ·) (select p.dark p.delta)
        (List.zipWith (· + ·) (select p.dark p.high) (select p.dark p.low)))
      grey
  scatter p.light
    (List.zipWith (· / ·) (select p.light p.delta)
      (List.zipWith (· - ·) ((select p.light p.high).map (ofNat 2 - ·)) (select p.light p.low)))
    withDark

/-- The quotients `(x - y) / delta` at the cells that a mask picks. -/
def slopes (mask : List Bool) (x y : List ν) : List ν :=
  List.zipWith (· / ·) (List.zipWith (· - ·) (select mask x) (select mask y))
    (select mask p.delta)

def hue : List ν :=
  let start := p.high.map fun _ => ofNat 0
  let withRed := scatter p.atRed (p.slopes p.atRed p.green p.blue) start
  let withGreen :=
    scatter p.atGreen ((p.slopes p.atGreen p.blue p.red).map (ofNat 2 + ·)) withRed
  let withBlue :=
    scatter p.atBlue ((p.slopes p.atBlue p.red p.green).map (ofNat 4 + ·)) withGreen
  withBlue.map fun x => Hsl.wrapHue (x * ofNat 60)

/-- The conversion of all cells. -/
def toHsl : List (Hsl ν) :=
  zipHsl p.hue p.saturation p.luminance

@[simp]
theorem length_toHsl_ofChannels (cells : List (ν × ν × ν)) :
    (ofChannels cells).toHsl.length = cells.length := by
  apply length_zipHsl
  · simp [hue, high, ofChannels]
  · simp [saturation, luminance, high, low, ofChannels]
  · simp [luminance, high, low, ofChannels]

end Planes

/-- The conversion of every cell of an array, which keeps its shape. -/
def Grid.toHsl [Scalar ν] (g : Grid (ν × ν × ν)) : Grid (Hsl ν) where
  shape := g.shape
  cells := (Planes.ofChannels g.cells).toHsl
  size_eq := by rw [Planes.length_toHsl_ofChannels]; exact g.size_eq

end Palette
