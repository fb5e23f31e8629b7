import Palette.Color.Hsl
import Palette.Field.Format

/-!
# Printed colours

Each supported format prints a colour in one way.  A format that is not
supported prints nothing.
-/

namespace Palette

namespace Rgb

/-- A channel as a fraction with two decimals. -/
def fraction (ν : Type) [Scalar ν] (channel : Byte) : List Char :=
  Scalar.twoDecimals (Hsl.unit channel : ν)

def decimal (channel : Byte) : List Char :=
  Nat.toDigits 10 channel.val

/-- The text of a colour in a format, fractions being computed in the scalars `ν`. -/
def printChars (ν : Type) [Scalar ν] (c : Rgb) (f : Format) : List Char :=
  match f.kind, f.variant with
  | .hex, .rgb => c.chars
  | .hex, .r => Text.lowerHex c.red
  | .hex, .g => Text.lowerHex c.green
  | .hex, .b => Text.lowerHex c.blue
  | .hex, .bgr => Text.lowerHex c.blue ++ Text.lowerHex c.green ++ Text.lowerHex c.red
  | .rgb, .r => decimal c.red
  | .rgb, .g => decimal c.green
  | .rgb, .b => decimal c.blue
  | .dec, .r => fraction ν c.red
  | .dec, .g => fraction ν c.green
  | .dec, .b => fraction ν c.blue
  | .hsl, .h => Scalar.twoDecimals (Hsl.ofRgb c : Hsl ν).hue
  | .hsl, .s => Scalar.twoDecimals (Hsl.ofRgb c : Hsl ν).saturation
  | .hsl, .l => Scalar.twoDecimals (Hsl.ofRgb c : Hsl ν).luminance
  | _, _ => []

def print (ν : Type) [Scalar ν] (c : Rgb) (f : Format) : String :=
  String.ofList (c.printChars ν f)

end Rgb

/-- A colour together with the format that it is to be printed in. -/
structure ColorValue where
  color : Rgb
  format : Format
deriving DecidableEq

namespace ColorValue

def text (ν : Type) [Scalar ν] (v : ColorValue) : String :=
  v.color.print ν v.format

/-- A colour opens a section whatever its text. -/
def isTruthy (_ : ColorValue) : Bool :=
  true

def before (v w : ColorValue) : Bool :=
  v.color.before w.color || (v.color == w.color && v.format.before w.format)

end ColorValue
end Palette
