import Palette.Json.Basic
import Palette.Number.Decimal
import Palette.Text.Hex

/-!
# Reading JSON

The reader follows the JSON grammar.  Escaped surrogates are joined in pairs; one
without a partner stands for itself.  A number without a point and an exponent is
whole; any other one is kept as the decimal that it writes.
-/

namespace Palette
namespace Json

def isSpace (c : Char) : Bool :=
  c == ' ' || c == '\n' || c == '\r' || c == '\t'

def skipSpace (s : List Char) : List Char :=
  s.dropWhile isSpace

/-! ## Strings -/

/-- The code unit written by four hexadecimal digits. -/
def unit? : List Char → Option (Nat × List Char)
  | a :: b :: c :: d :: rest =>
      if [a, b, c, d].all Text.isHexDigit then some (Text.hexNumber [a, b, c, d], rest) else none
  | _ => none

/-- The code unit of an escape. -/
def escapedUnit? : List Char → Option (Nat × List Char)
  | '\\' :: 'u' :: rest => unit? rest
  | _ => none

/-- The code point that a code unit stands for, with the unit that follows if they
are a pair of surrogates. -/
def unitPoint (n : Nat) (rest : List Char) : CodePoint × List Char :=
  match escapedUnit? rest with
  | some (m, after) =>
      if 0xD800 ≤ n ∧ n < 0xDC00 ∧ 0xDC00 ≤ m ∧ m < 0xE000 then
        (.ofNat (0x10000 + (n - 0xD800) * 0x400 + (m - 0xDC00)), after)
      else (.ofNat n, rest)
  | none => (.ofNat n, rest)

def simpleEscape? : Char → Option Char
  | '"' => some '"'
  | '\\' => some '\\'
  | '/' => some '/'
  | 'b' => some (Char.ofNat 0x08)
  | 'f' => some (Char.ofNat 0x0C)
  | 'n' => some '\n'
  | 'r' => some '\r'
  | 't' => some '\t'
  | _ => none

/-- The first code point of the inside of a string, or nothing at its end. -/
def stringPoint? : List Char → Option (Option CodePoint × List Char)
  | [] => none
  | '"' :: rest => some (none, rest)
  | '\\' :: 'u' :: rest =>
      match unit? rest with
      | some (n, rest) =>
          match unitPoint n rest with
          | (point, rest) => some (some point, rest)
      | none => none
  | '\\' :: c :: rest => (simpleEscape? c).map fun c => (some (.char c), rest)
  | c :: rest => if c.toNat < 0x20 ∨ c = '\\' then none else some (some (.char c), rest)

/-- The code points of a string behind its opening quote. -/
def stringPoints? : Nat → List Char → Option (Phrase × List Char)
  | 0, _ => none
  | fuel + 1, s =>
      match stringPoint? s with
      | some (some point, rest) =>
          (stringPoints? fuel rest).map fun (points, rest) => (point :: points, rest)
      | some (none, rest) => some ([], rest)
      | none => none

def string? (s : List Char) : Option (Phrase × List Char) :=
  stringPoints? (s.length + 1) s

/-! ## Numbers -/

def digits (s : List Char) : List Char × List Char :=
  (s.takeWhile Char.isDigit, s.dropWhile Char.isDigit)

def decimalNumber (digits : List Char) : Nat :=
  digits.foldl (fun n c => 10 * n + (c.toNat - '0'.toNat)) 0

/-- The digits after a point, none if there is no point. -/
def fraction? : List Char → Option (List Char × List Char)
  | '.' :: rest =>
      match digits rest with
      | ([], _) => none
      | (ds, rest) => some (ds, rest)
  | s => some ([], s)

/-- The exponent, if there is one. -/
def exponent? (s : List Char) : Option (Option Int × List Char) :=
  let power (sign : Int) (s : List Char) : Option (Option Int × List Char) :=
    match digits s with
    | ([], _) => none
    | (ds, rest) => some (some (sign * decimalNumber ds), rest)
  match s with
  | c :: rest =>
      if c = 'e' ∨ c = 'E' then
        match rest with
        | '-' :: rest => power (-1) rest
        | '+' :: rest => power 1 rest
        | rest => power 1 rest
      else some (none, s)
  | [] => some (none, s)

/-- A number without its sign. -/
def magnitude? (negative : Bool) (s : List Char) : Option (Json Decimal × List Char) :=
  match digits s with
  | ([], _) => none
  | (whole, rest) =>
      if 1 < whole.length ∧ whole.head? = some '0' then none
      else
        match fraction? rest with
        | none => none
        | some (part, rest) =>
            match exponent? rest with
            | none => none
            | some (power, rest) =>
                if part.isEmpty && power.isNone then
                  let n : Int := decimalNumber whole
                  some (.int (if negative then -n else n), rest)
                else
                  some (.real ⟨negative, decimalNumber (whole ++ part),
                    power.getD 0 - part.length⟩, rest)

/-! ## Values -/

/-- The names that stand for values. -/
def named? : List Char → Option (Json Decimal × List Char)
  | 'n' :: 'u' :: 'l' :: 'l' :: rest => some (.null, rest)
  | 't' :: 'r' :: 'u' :: 'e' :: rest => some (.bool true, rest)
  | 'f' :: 'a' :: 'l' :: 's' :: 'e' :: rest => some (.bool false, rest)
  | _ => none

mutual

def value? : Nat → List Char → Option (Json Decimal × List Char)
  | 0, _ => none
  | fuel + 1, s =>
      match skipSpace s with
      | '"' :: rest => (string? rest).map fun (t, rest) => (.text t, rest)
      | '-' :: rest => magnitude? true rest
      | '[' :: rest =>
          match skipSpace rest with
          | ']' :: rest => some (.array [], rest)
          | rest => (items? fuel rest).map fun (items, rest) => (.array items, rest)
      | '\x7b' :: rest =>
          match skipSpace rest with
          | '\x7d' :: rest => some (.object [], rest)
          | rest => (members? fuel rest).map fun (members, rest) => (.object members, rest)
      | rest => (named? rest).or (magnitude? false rest)

/-- The items of an array up to its end. -/
def items? : Nat → List Char → Option (List (Json Decimal) × List Char)
  | 0, _ => none
  | fuel + 1, s =>
      match value? fuel s with
      | none => none
      | some (item, rest) =>
          match skipSpace rest with
          | ',' :: rest => (items? fuel rest).map fun (items, rest) => (item :: items, rest)
          | ']' :: rest => some ([item], rest)
          | _ => none

/-- The members of an object up to its end. -/
def members? : Nat → List Char → Option (List (String × Json Decimal) × List Char)
  | 0, _ => none
  | fuel + 1, s =>
      match skipSpace s with
      | '"' :: rest =>
          match string? rest with
          | none => none
          | some (key, rest) =>
              match skipSpace rest with
              | ':' :: rest =>
                  match value? fuel rest with
                  | none => none
                  | some (value, rest) =>
                      match skipSpace rest with
                      | ',' :: rest =>
                          (members? fuel rest).map fun (members, rest) =>
                            ((key.shown, value) :: members, rest)
                      | '\x7d' :: rest => some ([(key.shown, value)], rest)
                      | _ => none
              | _ => none
      | _ => none

end

/-- Reads a text that holds one value and nothing else but space. -/
def parse? (s : List Char) : Option (Json Decimal) :=
  match value? (2 * s.length + 2) s with
  | some (value, rest) => if (skipSpace rest).isEmpty then some value else none
  | none => none

end Json
end Palette
