import Palette.Color.Rgb

/-!
# Swatches

A swatch shows colours as squares, row by row.  Cells that are left over at the
end of the last row are transparent.
-/

namespace Palette

/-- A pixel: three channels and an alpha value. -/
structure Pixel where
  red : Byte
  green : Byte
  blue : Byte
  alpha : Byte
deriving DecidableEq

namespace Pixel

def opaqueOf (c : Rgb) : Pixel :=
  ⟨c.red, c.green, c.blue, Byte.ofNat 255⟩

def transparent : Pixel :=
  ⟨Byte.ofNat 0, Byte.ofNat 0, Byte.ofNat 0, Byte.ofNat 0⟩

def bytes (p : Pixel) : List Byte :=
  [p.red, p.green, p.blue, p.alpha]

end Pixel

structure Image where
  width : Nat
  height : Nat
  rows : List (List Pixel)
deriving DecidableEq

namespace Swatch

/-- A size or a number of columns below one. -/
structure Fault where
  size : Int
  columns : Int
deriving DecidableEq

/-- What is said of a size and a number of columns that are refused. -/
def refusal (size columns : String) : String :=
  "size and columns must be positive, got size=" ++ size ++ " columns=" ++ columns

def Fault.message (fault : Fault) : String :=
  refusal (toString fault.size) (toString fault.columns)

/-- The columns that are used: no more than there are colours, and at least one. -/
def usedColumns (count columns : Nat) : Nat :=
  max 1 (min columns count)

/-- The rows needed, at least one. -/
def usedRows (count columns : Nat) : Nat :=
  max 1 ((count + columns - 1) / columns)

/-- Cuts a list into a number of rows of a width. -/
def chunks (width : Nat) : Nat → List α → List (List α)
  | 0, _ => []
  | rows + 1, cells => cells.take width :: chunks width rows (cells.drop width)

/-- Repeats each item of a list a number of times. -/
def stretch (times : Nat) (items : List α) : List α :=
  items.flatMap (List.replicate times)

/-- The cells of the squares, filled up with transparent ones. -/
def cells (count : Nat) (colors : List Rgb) : List Pixel :=
  colors.map Pixel.opaqueOf ++ List.replicate (count - colors.length) Pixel.transparent

def draw (colors : List Rgb) (size columns : Nat) : Image :=
  let columns := usedColumns colors.length columns
  let rows := usedRows colors.length columns
  let grid := chunks columns rows (cells (rows * columns) colors)
  { width := columns * size
    height := rows * size
    rows := stretch size (grid.map (stretch size)) }

/-- Draws the colours as squares of `size` pixels in rows of `columns`. -/
def build (colors : List Rgb) (size columns : Int) : Except Fault Image :=
  if size < 1 ∨ columns < 1 then .error ⟨size, columns⟩
  else .ok (draw colors size.toNat columns.toNat)

end Swatch
end Palette
