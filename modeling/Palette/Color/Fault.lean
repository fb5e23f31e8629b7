import Palette.Datum

/-!
# Faults of colour codes

What can be wrong with a number, or with a datum that should be the key of a
colour or a colour.
-/

namespace Palette

/-- A whole number that is not one of the 256 values of a byte. -/
inductive RangeFault where
  | index (value : Int)
  | channel (value : Int)
deriving DecidableEq

namespace RangeFault

def message : RangeFault → String
  | index value => "BaseIndex out of range: " ++ toString value
  | channel value => "RgbColor channel out of range: " ++ toString value

end RangeFault

/-- A datum that does not decode as an index or as a colour. -/
inductive CodeFault (ν : Type) where
  /-- Not a text that starts as an index does. -/
  | notIndex (value : Datum ν)
  /-- A text without two hexadecimal digits after the start of an index. -/
  | indexDigits (value : Datum ν)
  | notColor (value : Datum ν)
  /-- A text that is not six hexadecimal digits. -/
  | colorDigits (value : Datum ν)

namespace CodeFault

variable [Scalar ν]

def expectedDigits (count : Nat) (value : Datum ν) : String :=
  "expected " ++ toString count ++ " hex digits, got " ++ value.quoted

def message : CodeFault ν → String
  | notIndex value => value.quoted ++ " should start with \"base\""
  | indexDigits value =>
      value.quoted ++ ": expected a hex number between 00 and FF (" ++
        expectedDigits 2 (value.dropText 4) ++ ")"
  | notColor value => "color must be a hex string, got " ++ value.quoted
  | colorDigits value => "invalid color " ++ value.quoted ++ ": " ++ expectedDigits 6 value

end CodeFault
end Palette
