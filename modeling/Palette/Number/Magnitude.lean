/-!
# Exact values of numbers

What is printed of a number depends on its exact value.  A finite value is a
sign and a quotient of naturals; the value of a double is read off its bits.
-/

namespace Palette

/-- The exact value of a number: a signed quotient, or one of the values of
floating point that are none.  A zero keeps its sign. -/
inductive Magnitude where
  | finite (negative : Bool) (numerator denominator : Nat)
  | infinite (negative : Bool)
  | undefined
deriving DecidableEq

namespace Magnitude

def ofInt (i : Int) : Magnitude :=
  finite (i < 0) i.natAbs 1

/-- Whether two finite values are the same number, whatever the sign of a zero. -/
def same : Magnitude → Magnitude → Bool
  | finite s n d, finite s' n' d' => n * d' == n' * d && (s == s' || n == 0)
  | infinite s, infinite s' => s == s'
  | _, _ => false

/-! ## Doubles -/

/-- Mantissa and exponent of a finite double without its sign: its value is
`mantissa * 2 ^ (exponent - 1074)`. -/
def mantissaOfBits (bits : UInt64) : Nat × Nat :=
  let fraction := (bits &&& 0xFFFFFFFFFFFFF).toNat
  let exponent := ((bits >>> 52) &&& 0x7FF).toNat
  if exponent = 0 then (fraction, 0) else (Nat.pow 2 52 + fraction, exponent - 1)

def ofBits (bits : UInt64) : Magnitude :=
  let negative := bits >>> 63 == 1
  if (bits >>> 52) &&& 0x7FF == 0x7FF then
    if bits &&& 0xFFFFFFFFFFFFF == 0 then infinite negative else undefined
  else
    match mantissaOfBits bits with
    | (mantissa, exponent) =>
        if exponent ≤ 1074 then finite negative mantissa (Nat.pow 2 (1074 - exponent))
        else finite negative (mantissa * Nat.pow 2 (exponent - 1074)) 1

def ofFloat (x : Float) : Magnitude :=
  ofBits x.toBits

end Magnitude
end Palette
