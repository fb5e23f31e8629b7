import Palette.Color.Rgb
import Palette.Number.Scalar

/-!
# Hue, saturation and luminance

The hue is an angle in degrees from 0 up to, but not including, 360; saturation
and luminance are fractions.  The hue is taken from the greatest channel, red
before green before blue, and a grey has hue and saturation zero.
-/

namespace Palette

structure Hsl (ν : Type) where
  hue : ν
  saturation : ν
  luminance : ν

namespace Hsl

variable {ν : Type} [Scalar ν]

open Scalar

/-- Brings an angle that lies above -360 and below 360 degrees into one turn. -/
def wrapHue (x : ν) : ν :=
  if less x (ofNat 0) then x + ofNat 360
  else if equal x (ofNat 0) then ofNat 0
  else x

/-- The conversion of three fractions. -/
def ofUnits (r g b : ν) : Hsl ν :=
  let high := greater (greater r g) b
  let low := lesser (lesser r g) b
  let luminance := (high + low) / ofNat 2
  if equal high low then ⟨ofNat 0, ofNat 0, luminance⟩
  else
    let delta := high - low
    let saturation :=
      if atMost luminance (ofNat 1 / ofNat 2) then delta / (high + low)
      else delta / (ofNat 2 - high - low)
    let hue :=
      if equal high r then (g - b) / delta
      else if equal high g then ofNat 2 + (b - r) / delta
      else ofNat 4 + (r - g) / delta
    ⟨wrapHue (hue * ofNat 60), saturation, luminance⟩

/-- The fraction of full intensity that a channel stands for. -/
def unit (channel : Byte) : ν :=
  ofNat channel.val / ofNat 255

def ofRgb (c : Rgb) : Hsl ν :=
  ofUnits (unit c.red) (unit c.green) (unit c.blue)

/-- The conversion of three channels that need not be whole numbers. -/
def ofChannels (c : ν × ν × ν) : Hsl ν :=
  ofUnits (c.1 / ofNat 255) (c.2.1 / ofNat 255) (c.2.2 / ofNat 255)

end Hsl
end Palette
