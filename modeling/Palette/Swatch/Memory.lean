import Palette.Machine
import Palette.Number.Fixed
import Palette.Swatch

/-!
# Memory of swatches

A swatch is stretched first in height and then in width, each time into an array
of four bytes a pixel.  A size must be a number of the machine.  The height and
the width of an array wrap around at its limit; the bytes must be such a number
again, and have to fit into memory.  The second array becomes an image, whose
width and height must be ones that the image library takes.
-/

namespace Palette
namespace Swatch

/-- Why a swatch cannot be held. -/
inductive Excess where
  /-- The size is no number of the machine. -/
  | size
  /-- The height or the width of an array has wrapped around to a negative number. -/
  | negative
  /-- An array has more bytes than the machine can count. -/
  | count
  /-- An array does not fit into memory. -/
  | memory (height width : Nat)
  /-- The image library takes no image of the width and the height. -/
  | image (width height : Nat)
deriving DecidableEq

/-- Whether the values themselves are at fault, and not the machine. -/
def Excess.isRefused : Excess → Bool
  | size => false
  | negative => true
  | count => true
  | memory _ _ => false
  | image _ _ => false

/-- The least number that is none of the machine. -/
def countLimit : Nat :=
  0x8000000000000000

/-- The signed number of the machine that a number wraps around to. -/
def wrapped (n : Nat) : Int :=
  Int.bmod n (2 * countLimit)

def arrayBytes (height width : Nat) : Nat :=
  4 * (height * width)

/-- What keeps an array from being held; where it is empty in one direction, the
other one still counts. -/
def arrayExcess? (m : Machine) (height width : Int) : Option Excess :=
  let bytes := arrayBytes (max 1 height.toNat) (max 1 width.toNat)
  if height < 0 ∨ width < 0 then some .negative
  else if countLimit ≤ bytes then some .count
  else if m.memory ≤ bytes then some (.memory height.toNat width.toNat)
  else none

def imageExcess? (m : Machine) (width height : Nat) : Option Excess :=
  if m.takesImage width height then none else some (.image width height)

/-- What keeps a swatch of a number of colours from being held. -/
def excess? (m : Machine) (count size columns : Nat) : Option Excess :=
  let columns := usedColumns count columns
  let rows := usedRows count columns
  let height := wrapped (rows * size)
  if countLimit ≤ size then some .size
  else
    ((arrayExcess? m height columns).or (arrayExcess? m height (wrapped (columns * size)))).or
      (imageExcess? m (columns * size) (rows * size))

/-! ## Messages -/

/-- A quotient with three digits; a point follows if there is none among them. -/
def threeDigits (numerator denominator : Nat) : List Char :=
  let hundredths := roundHalfEven (100 * numerator) denominator
  let tenths := roundHalfEven (10 * numerator) denominator
  if hundredths < 1000 then Magnitude.hundredthsText hundredths
  else if tenths < 1000 then
    Nat.toDigits 10 (tenths / 10) ++ '.' :: Nat.toDigits 10 (tenths % 10)
  else Nat.toDigits 10 (roundHalfEven numerator denominator) ++ ['.']

/-- The units of memory, each 1024 times the one before. -/
def unitNames : List String :=
  ["bytes", "KiB", "MiB", "GiB", "TiB", "PiB", "EiB"]

/-- A number of bytes in the greatest unit of which there is one at least. -/
def bytesText (bytes : Nat) : String :=
  let order := Nat.log2 bytes / 10
  let order := if roundHalfEven bytes (Nat.pow 1024 order) = 1024 then order + 1 else order
  if order = 0 then toString bytes ++ " bytes"
  else String.ofList (threeDigits bytes (Nat.pow 1024 order)) ++ " " ++ unitNames.getD order "EiB"

def Excess.message : Excess → String
  | size => "size too large"
  | negative => "negative dimensions are not allowed"
  | count =>
      "array is too big; \x60arr.size * arr.dtype.itemsize\x60 is larger than the maximum " ++
        "possible size."
  | memory height width =>
      "Unable to allocate " ++ bytesText (arrayBytes height width) ++
        " for an array with shape (" ++ toString height ++ ", " ++ toString width ++
        ", 4) and data type uint8"
  | image _ _ => ""

/-! ## Swatches that can be held -/

/-- Why a swatch is not made. -/
inductive MakeFault where
  | refused (fault : Fault)
  | excess (excess : Excess)
deriving DecidableEq

/-- Builds a swatch if it can be held. -/
def make (m : Machine) (colors : List Rgb) (size columns : Int) : Except MakeFault Image :=
  if size < 1 ∨ columns < 1 then .error (.refused ⟨size, columns⟩)
  else
    match excess? m colors.length size.toNat columns.toNat with
    | some e => .error (.excess e)
    | none => (build colors size columns).mapError .refused

end Swatch
end Palette
