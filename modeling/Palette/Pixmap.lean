import Palette.Swatch
import Palette.Text.Utf8

/-!
# Pixmap files

An image is written as a binary pixmap: a line with the kind of the file, its
width and height, the greatest value of a channel, and the channels of all
pixels row by row.  There is no alpha channel.
-/

namespace Palette
namespace Pixmap

open Text (Bytes)

def header (image : Image) : List Char :=
  ['P', '6', '\n'] ++ Nat.toDigits 10 image.width ++ ' ' :: Nat.toDigits 10 image.height ++
    ['\n', '2', '5', '5', '\n']

def pixelBytes (p : Pixel) : Bytes :=
  [p.red, p.green, p.blue].map fun b => UInt8.ofNat b.val

def encode (image : Image) : Bytes :=
  Text.Utf8.encode (header image) ++ image.rows.flatMap fun row => row.flatMap pixelBytes

end Pixmap
end Palette
