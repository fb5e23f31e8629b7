/-!
# Blank characters

The characters that are trimmed from the ends of words: the ASCII controls from
tab to carriage return, the four information separators, the space, and the
spaces and line separators of Unicode.  Zero-width characters are not blank.
-/

namespace Palette
namespace Text

/-- Whether a character is an information separator. -/
def isSeparator (c : Char) : Bool :=
  0x1C ≤ c.toNat && c.toNat ≤ 0x1F

def isBlank (c : Char) : Bool :=
  let n := c.toNat
  (0x09 ≤ n && n ≤ 0x0D) || isSeparator c || n == 0x20 || n == 0x85 || n == 0xA0 ||
    n == 0x1680 || (0x2000 ≤ n && n ≤ 0x200A) || n == 0x2028 || n == 0x2029 ||
    n == 0x202F || n == 0x205F || n == 0x3000

/-! ## Trimming -/

def trimStartOf (p : Char → Bool) (s : List Char) : List Char :=
  s.dropWhile p

def trimEndOf (p : Char → Bool) (s : List Char) : List Char :=
  (s.reverse.dropWhile p).reverse

/-- Drops the characters of a class from both ends. -/
def trimOf (p : Char → Bool) (s : List Char) : List Char :=
  trimEndOf p (trimStartOf p s)

def trimEnd (s : List Char) : List Char :=
  trimEndOf isBlank s

/-- Drops the blanks from both ends. -/
def trim (s : List Char) : List Char :=
  trimOf isBlank s

end Text
end Palette
