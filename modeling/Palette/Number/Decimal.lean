import Palette.Number.Magnitude

/-!
# Decimal numbers

A decimal is a whole number times a power of ten.  It is what a number literal
with a point or an exponent says exactly, and what the shortest text of a
double is made from.

## Shortest decimals

The shortest decimal of a double is the one with the fewest digits among those
that are read back as it.  The reals that round to a double form an interval,
with its ends if the mantissa is even.  On the grid of decimals with a given
number of digits only the two neighbours of the double can be the first to fall
into the interval, so they are tried for one digit, two digits, and so on.
-/

namespace Palette

/-- The value `coefficient * 10 ^ exponent` with its sign. -/
structure Decimal where
  negative : Bool
  coefficient : Nat
  exponent : Int
deriving DecidableEq

namespace Decimal

def toFloat (d : Decimal) : Float :=
  let size := Float.ofScientific d.coefficient (d.exponent < 0) d.exponent.natAbs
  if d.negative then -size else size

/-- Moves the zeros at the end of a coefficient into the exponent. -/
def dropZeros : Nat → Nat → Int → Nat × Int
  | 0, coefficient, exponent => (coefficient, exponent)
  | steps + 1, coefficient, exponent =>
      if coefficient ≠ 0 ∧ coefficient % 10 = 0 then
        dropZeros steps (coefficient / 10) (exponent + 1)
      else (coefficient, exponent)

/-! ## Search for the shortest -/

/-- An interval of positive reals around a value, in units of `unit / scale`. -/
structure Interval where
  low : Nat
  value : Nat
  high : Nat
  closed : Bool
  unit : Nat
  scale : Nat

/-- The interval of the reals that round to the double of a mantissa and an
exponent as `Magnitude.mantissaOfBits` gives them.  Below a power of two the
doubles are twice as dense. -/
def Interval.ofMantissa (mantissa exponent : Nat) : Interval where
  low := if mantissa = Nat.pow 2 52 ∧ 0 < exponent then 4 * mantissa - 1 else 4 * mantissa - 2
  value := 4 * mantissa
  high := 4 * mantissa + 2
  closed := mantissa % 2 == 0
  unit := Nat.pow 2 (exponent - 1076)
  scale := Nat.pow 2 (1076 - exponent)

/-- Whether the quotient `numerator / denominator` lies in the interval. -/
def Interval.contains (i : Interval) (numerator denominator : Nat) : Bool :=
  let point := numerator * i.scale
  let low := i.low * i.unit * denominator
  let high := i.high * i.unit * denominator
  if i.closed then low ≤ point && point ≤ high else low < point && point < high

def powerQuotient (exponent : Int) : Nat × Nat :=
  (Nat.pow 10 exponent.toNat, Nat.pow 10 (-exponent).toNat)

/-- The number of digits in front of the point of a positive quotient; for a
quotient below one tenth, minus the number of zeros after the point. -/
def pointPlace (numerator denominator : Nat) : Int :=
  if denominator ≤ numerator then (Nat.toDigits 10 (numerator / denominator)).length
  else 1 - ((Nat.toDigits 10 ((denominator - 1) / numerator)).length : Int)

/-- The neighbour of the value on the grid of multiples of `10 ^ exponent` that
lies in the interval, the nearer one if both do. -/
def Interval.onGrid? (i : Interval) (exponent : Int) : Option Nat :=
  let (up, down) := powerQuotient exponent
  let numerator := i.value * i.unit * down
  let denominator := i.scale * up
  let below := numerator / denominator
  let twice := 2 * (numerator % denominator)
  let hit (n : Nat) := i.contains (n * up) down
  match hit below, hit (below + 1) with
  | true, true =>
      if twice < denominator then some below
      else if denominator < twice then some (below + 1)
      else some (below + below % 2)
  | true, false => some below
  | false, true => some (below + 1)
  | false, false => none

/-- Tries ever more digits, at most `tries` times. -/
def Interval.search (i : Interval) (place : Int) : Nat → Nat → Nat × Int
  | 0, digits => (0, place - digits)
  | tries + 1, digits =>
      match i.onGrid? (place - digits) with
      | some n => (n, place - digits)
      | none => i.search place tries (digits + 1)

/-- The shortest decimal of a positive finite double. -/
def shortest (negative : Bool) (mantissa exponent : Nat) : Decimal :=
  let i := Interval.ofMantissa mantissa exponent
  let (n, e) := i.search (pointPlace (i.value * i.unit) i.scale) 17 1
  let (coefficient, exponent) := dropZeros 18 n e
  ⟨negative, coefficient, exponent⟩

/-! ## Text -/

/-- Digits with a point after the first `place` of them and zeros where digits
are missing. -/
def positional (digits : List Char) (place : Int) : List Char :=
  if place ≤ 0 then
    ['0', '.'] ++ List.replicate (-place).toNat '0' ++ digits
  else if digits.length ≤ place.toNat then
    digits ++ List.replicate (place.toNat - digits.length) '0' ++ ['.', '0']
  else
    digits.take place.toNat ++ ['.'] ++ digits.drop place.toNat

/-- Digits with a point after the first and an exponent of two digits or more. -/
def scientific (digits : List Char) (place : Int) : List Char :=
  let power := place - 1
  let powerDigits := Nat.toDigits 10 power.natAbs
  (match digits with
    | [] => []
    | [d] => [d]
    | d :: rest => d :: '.' :: rest) ++
    ['e', if power < 0 then '-' else '+'] ++
    List.replicate (2 - powerDigits.length) '0' ++ powerDigits

/-- A decimal from 0.0001 up to 10 to the 16th is written positionally, any
other one with an exponent. -/
def text (d : Decimal) : List Char :=
  let digits := Nat.toDigits 10 d.coefficient
  let place := d.exponent + digits.length
  (if d.negative then ['-'] else []) ++
    if -4 < place ∧ place ≤ 16 then positional digits place else scientific digits place

end Decimal

/-- The names of the values that have no digits. -/
structure SpecialNames where
  infinity : String
  undefined : String

/-- The shortest text that is read back as the same double. -/
def floatText (names : SpecialNames) (x : Float) : List Char :=
  match Magnitude.ofFloat x with
  | .undefined => names.undefined.toList
  | .infinite negative => (if negative then ['-'] else []) ++ names.infinity.toList
  | .finite negative numerator _ =>
      if numerator = 0 then (if negative then ['-'] else []) ++ "0.0".toList
      else
        let (mantissa, exponent) := Magnitude.mantissaOfBits x.toBits
        (Decimal.shortest negative mantissa exponent).text

end Palette
