/-!
# Hexadecimal digits

Digits are read in either case.  A byte is written as two digits, in lower or
in upper case.
-/

namespace Palette

/-- One of the 256 values of a byte. -/
abbrev Byte := Fin 256

/-- The byte of a number, modulo 256. -/
def Byte.ofNat (n : Nat) : Byte :=
  ⟨n % 256, Nat.mod_lt n (by decide)⟩

namespace Text

/-- The value of a hexadecimal digit of either case. -/
def hexValue? (c : Char) : Option Nat :=
  if '0' ≤ c ∧ c ≤ '9' then some (c.toNat - '0'.toNat)
  else if 'a' ≤ c ∧ c ≤ 'f' then some (c.toNat - 'a'.toNat + 10)
  else if 'A' ≤ c ∧ c ≤ 'F' then some (c.toNat - 'A'.toNat + 10)
  else none

def isHexDigit (c : Char) : Bool :=
  (hexValue? c).isSome

/-- The byte that two digits denote. -/
def byteOfHex? (high low : Char) : Option Byte :=
  match hexValue? high, hexValue? low with
  | some h, some l => some (Byte.ofNat (16 * h + l))
  | _, _ => none

def lowerHexDigit (n : Nat) : Char :=
  if n < 10 then Char.ofNat ('0'.toNat + n) else Char.ofNat ('a'.toNat + (n - 10))

def upperHexDigit (n : Nat) : Char :=
  if n < 10 then Char.ofNat ('0'.toNat + n) else Char.ofNat ('A'.toNat + (n - 10))

def lowerHex (b : Byte) : List Char :=
  [lowerHexDigit (b.val / 16), lowerHexDigit (b.val % 16)]

def upperHex (b : Byte) : List Char :=
  [upperHexDigit (b.val / 16), upperHexDigit (b.val % 16)]

/-- The last `width` hexadecimal digits of a number, zeros included. -/
def hexDigits (digit : Nat → Char) : Nat → Nat → List Char
  | 0, _ => []
  | width + 1, n => hexDigits digit width (n / 16) ++ [digit (n % 16)]

/-- The number that a run of hexadecimal digits denotes. -/
def hexNumber (digits : List Char) : Nat :=
  digits.foldl (fun n c => 16 * n + (hexValue? c).getD 0) 0

end Text
end Palette
