import Palette.Color.Fault

/-!
# Colour indices

The colours of a scheme are numbered by a byte.  An index is written `base` and
two hexadecimal digits, which are read in either case and printed in upper case.
-/

namespace Palette

def byteOfInt? (i : Int) : Option Byte :=
  if h : 0 ≤ i ∧ i < 256 then some ⟨i.toNat, by omega⟩ else none

structure Index where
  byte : Byte
deriving DecidableEq

namespace Index

instance : LT Index where
  lt i j := i.byte < j.byte

instance (i j : Index) : Decidable (i < j) :=
  inferInstanceAs (Decidable (i.byte < j.byte))

def ofInt? (i : Int) : Except RangeFault Index :=
  match byteOfInt? i with
  | some byte => .ok ⟨byte⟩
  | none => .error (.index i)

/-- The word in front of the digits. -/
def word : List Char :=
  ['b', 'a', 's', 'e']

def chars (i : Index) : List Char :=
  word ++ Text.upperHex i.byte

def text (i : Index) : String :=
  String.ofList i.chars

/-- The rest of a text that starts with the word of an index. -/
def afterWord? : List Char → Option (List Char)
  | 'b' :: 'a' :: 's' :: 'e' :: rest => some rest
  | _ => none

def ofDigits? : List Char → Option Index
  | [high, low] => (Text.byteOfHex? high low).map Index.mk
  | _ => none

def parsePhrase (p : Phrase) : Except (CodeFault ν) Index :=
  match p.after? word with
  | none => .error (.notIndex (.text p))
  | some digits =>
      match digits.chars?.bind ofDigits? with
      | some i => .ok i
      | none => .error (.indexDigits (.text p))

def parse : Datum ν → Except (CodeFault ν) Index
  | .text p => parsePhrase p
  | d => .error (.notIndex d)

end Index
end Palette
