import Palette.Number.Magnitude

/-!
# Two decimals

A number printed with two decimals is first rounded to whole hundredths; a
value halfway between two of them goes to the even one.
-/

namespace Palette

/-- The natural number nearest to a quotient, the even one of two. -/
def roundHalfEven (numerator denominator : Nat) : Nat :=
  let quotient := numerator / denominator
  let twice := 2 * (numerator % denominator)
  if twice < denominator then quotient
  else if denominator < twice then quotient + 1
  else quotient + quotient % 2

namespace Magnitude

/-- The whole hundredths that a finite value rounds to. -/
def hundredths (numerator denominator : Nat) : Nat :=
  roundHalfEven (100 * numerator) denominator

/-- A number of hundredths with its point and two decimals. -/
def hundredthsText (n : Nat) : List Char :=
  Nat.toDigits 10 (n / 100) ++ ['.'] ++ Nat.toDigits 10 (n / 10 % 10) ++ Nat.toDigits 10 (n % 10)

def signText (negative : Bool) : List Char :=
  if negative then ['-'] else []

/-- The value with two decimals. -/
def twoDecimals : Magnitude → List Char
  | finite negative numerator denominator =>
      signText negative ++ hundredthsText (hundredths numerator denominator)
  | infinite negative => signText negative ++ "inf".toList
  | undefined => "nan".toList

end Magnitude
end Palette
