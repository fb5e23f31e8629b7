import Palette.Number.Decimal
import Palette.Number.Fixed

/-!
# Scalars

Colour arithmetic is written once and read in two ways: in doubles, as the
program computes it, and in exact rationals, where its laws hold.
-/

namespace Palette

class Scalar (ν : Type) extends Add ν, Sub ν, Mul ν, Div ν where
  ofNat : Nat → ν
  less : ν → ν → Bool
  equal : ν → ν → Bool
  magnitude : ν → Magnitude
  /-- The scalar nearest to a number of hundredths. -/
  ofHundredths (negative : Bool) (hundredths : Nat) : ν
  text : SpecialNames → ν → List Char

namespace Scalar

variable {ν : Type} [Scalar ν]

def atMost (x y : ν) : Bool :=
  less x y || equal x y

def greater (x y : ν) : ν :=
  if less x y then y else x

def lesser (x y : ν) : ν :=
  if less y x then y else x

def ofInt (i : Int) : ν :=
  if i < 0 then ofNat 0 - ofNat i.natAbs else ofNat i.natAbs

/-- Rounds to two decimals. -/
def roundHundredths (x : ν) : ν :=
  match magnitude x with
  | .finite negative numerator denominator =>
      ofHundredths negative (Magnitude.hundredths numerator denominator)
  | _ => x

def twoDecimals (x : ν) : List Char :=
  (magnitude x).twoDecimals

end Scalar

instance : Scalar Float where
  ofNat := Float.ofNat
  less x y := x < y
  equal x y := x == y
  magnitude := Magnitude.ofFloat
  ofHundredths negative n := Decimal.toFloat ⟨negative, n, -2⟩
  text := floatText

/-- The text of a rational shows its hundredths. -/
instance : Scalar Rat where
  ofNat n := n
  less x y := x < y
  equal x y := x == y
  magnitude x := .finite (x < 0) x.num.natAbs x.den
  ofHundredths negative n := if negative then -(n / 100) else n / 100
  text _ x := Magnitude.twoDecimals (.finite (x < 0) x.num.natAbs x.den)

end Palette
