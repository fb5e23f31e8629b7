import Palette.Json.Basic
import Palette.Number.Scalar
import Palette.Text.Hex

/-!
# Printed JSON

Values are printed in ASCII with two blanks of indentation for each level of
nesting.  A character outside the basic plane is escaped as a surrogate pair.
-/

namespace Palette
namespace Json

def unitEscape (n : Nat) : List Char :=
  '\\' :: 'u' :: Text.hexDigits Text.lowerHexDigit 4 n

def escapeChar (c : Char) : List Char :=
  let n := c.toNat
  if c = '"' ∨ c = '\\' then ['\\', c]
  else if c = '\n' then ['\\', 'n']
  else if c = '\r' then ['\\', 'r']
  else if c = '\t' then ['\\', 't']
  else if n = 0x08 then ['\\', 'b']
  else if n = 0x0C then ['\\', 'f']
  else if 0x20 ≤ n ∧ n < 0x7F then [c]
  else if n < 0x10000 then unitEscape n
  else
    unitEscape (0xD800 + (n - 0x10000) / 0x400) ++ unitEscape (0xDC00 + (n - 0x10000) % 0x400)

def escapePoint : CodePoint → List Char
  | .char c => escapeChar c
  | .surrogate s => unitEscape s.code

def printText (p : Phrase) : List Char :=
  '"' :: p.flatMap escapePoint ++ ['"']

def realNames : SpecialNames where
  infinity := "Infinity"
  undefined := "NaN"

/-- A new line at a level of nesting. -/
def newLine (depth : Nat) : List Char :=
  '\n' :: List.replicate (2 * depth) ' '

variable [Scalar ν]

mutual

/-- The text of a value whose first line is at a level of nesting. -/
def printAt (depth : Nat) : Json ν → List Char
  | null => "null".toList
  | bool true => "true".toList
  | bool false => "false".toList
  | int i => (toString i).toList
  | real x => Scalar.text realNames x
  | text p => printText p
  | array [] => ['[', ']']
  | array (item :: rest) =>
      '[' :: newLine (depth + 1) ++ printAt (depth + 1) item ++ printItems (depth + 1) rest ++
        newLine depth ++ [']']
  | object [] => ['\x7b', '\x7d']
  | object ((key, value) :: rest) =>
      '\x7b' :: newLine (depth + 1) ++ printText (.ofText key) ++ [':', ' '] ++
        printAt (depth + 1) value ++ printMembers (depth + 1) rest ++ newLine depth ++ ['\x7d']

def printItems (depth : Nat) : List (Json ν) → List Char
  | [] => []
  | item :: rest => ',' :: newLine depth ++ printAt depth item ++ printItems depth rest

def printMembers (depth : Nat) : List (String × Json ν) → List Char
  | [] => []
  | (key, value) :: rest =>
      ',' :: newLine depth ++ printText (.ofText key) ++ [':', ' '] ++ printAt depth value ++
        printMembers depth rest

end

def print (value : Json ν) : String :=
  String.ofList (printAt 0 value)

end Json
end Palette
