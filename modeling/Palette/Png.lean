import Palette.Swatch
import Palette.Text.Utf8

/-!
# PNG files

An image is written as a PNG file with red, green, blue and alpha of eight bits
each.  Rows are not filtered and the data are stored without compression.
-/

namespace Palette
namespace Png

open Text (Bytes)

/-- The bytes of a 32-bit word, the highest first. -/
def word (n : Nat) : Bytes :=
  [UInt8.ofNat (n >>> 24), UInt8.ofNat (n >>> 16), UInt8.ofNat (n >>> 8), UInt8.ofNat n]

/-- The bytes of a 16-bit word, the lowest first. -/
def shortWord (n : Nat) : Bytes :=
  [UInt8.ofNat n, UInt8.ofNat (n >>> 8)]

/-! ## Checksums -/

/-- Divides out a number of bits of a cyclic redundancy check. -/
def reduce : Nat → UInt32 → UInt32
  | 0, r => r
  | bits + 1, r => reduce bits (if r &&& 1 == 1 then (r >>> 1) ^^^ 0xEDB88320 else r >>> 1)

def cyclicCheck (bytes : Bytes) : UInt32 :=
  bytes.foldl (fun r b => reduce 8 (r ^^^ b.toUInt32)) 0xFFFFFFFF ^^^ 0xFFFFFFFF

/-- The sum of the bytes and the sum of all partial sums, both modulo 65521. -/
def sumCheck (bytes : Bytes) : Nat :=
  let (a, b) := bytes.foldl (fun (a, b) x =>
    ((a + x.toNat) % 65521, (b + a + x.toNat) % 65521)) (1, 0)
  b * 65536 + a

/-! ## Chunks -/

def chunk (kind : List Char) (data : Bytes) : Bytes :=
  let body := Text.Utf8.encode kind ++ data
  word data.length ++ body ++ word (cyclicCheck body).toNat

/-- Stored blocks of at most 65535 bytes each. -/
def stored : Nat → Bytes → Bytes
  | 0, _ => []
  | fuel + 1, bytes =>
      let block := bytes.take 65535
      let rest := bytes.drop 65535
      [if rest.isEmpty then 1 else 0] ++ shortWord block.length ++
        shortWord (65535 - block.length) ++ block ++
        (if rest.isEmpty then [] else stored fuel rest)

def compressed (bytes : Bytes) : Bytes :=
  [0x78, 0x01] ++ stored (bytes.length + 1) bytes ++ word (sumCheck bytes)

def rowBytes (row : List Pixel) : Bytes :=
  0 :: (row.flatMap Pixel.bytes).map fun b => UInt8.ofNat b.val

def signature : Bytes :=
  [0x89, 0x50, 0x4E, 0x47, 0x0D, 0x0A, 0x1A, 0x0A]

def encode (image : Image) : Bytes :=
  signature ++
    chunk ['I', 'H', 'D', 'R'] (word image.width ++ word image.height ++ [8, 6, 0, 0, 0]) ++
    chunk ['I', 'D', 'A', 'T'] (compressed (image.rows.flatMap rowBytes)) ++
    chunk ['I', 'E', 'N', 'D'] []

end Png
end Palette
