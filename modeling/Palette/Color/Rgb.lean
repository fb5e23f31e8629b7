import Palette.Color.Index

/-!
# Colours

A colour has three channels of one byte.  It is written as six hexadecimal
digits, which are read in either case and printed in lower case.
-/

namespace Palette

structure Rgb where
  red : Byte
  green : Byte
  blue : Byte
deriving DecidableEq

namespace Rgb

/-- The channels are checked in their order. -/
def ofInts? (r g b : Int) : Except RangeFault Rgb :=
  match byteOfInt? r with
  | none => .error (.channel r)
  | some red =>
      match byteOfInt? g with
      | none => .error (.channel g)
      | some green =>
          match byteOfInt? b with
          | none => .error (.channel b)
          | some blue => .ok ⟨red, green, blue⟩

def chars (c : Rgb) : List Char :=
  Text.lowerHex c.red ++ Text.lowerHex c.green ++ Text.lowerHex c.blue

def text (c : Rgb) : String :=
  String.ofList c.chars

def ofDigits? : List Char → Option Rgb
  | [r₁, r₂, g₁, g₂, b₁, b₂] =>
      match Text.byteOfHex? r₁ r₂, Text.byteOfHex? g₁ g₂, Text.byteOfHex? b₁ b₂ with
      | some red, some green, some blue => some ⟨red, green, blue⟩
      | _, _, _ => none
  | _ => none

def parsePhrase (p : Phrase) : Except (CodeFault ν) Rgb :=
  match p.chars?.bind ofDigits? with
  | some c => .ok c
  | none => .error (.colorDigits (.text p))

def parse : Datum ν → Except (CodeFault ν) Rgb
  | .text p => parsePhrase p
  | d => .error (.notColor d)

/-- Lexicographic order by red, green and blue. -/
def before (c d : Rgb) : Bool :=
  c.red < d.red ||
    (c.red == d.red && (c.green < d.green || (c.green == d.green && c.blue < d.blue)))

end Rgb
end Palette
