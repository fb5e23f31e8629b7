import Palette.Json.Basic
import Palette.Number.Scalar
import Palette.Text.Phrase

/-!
# Data of a document

A decoded document, or a value given in place of one.  Unlike the members of a
JSON object, the keys of a mapping may be any data.  A datum has a quoted form,
which messages show.
-/

namespace Palette

inductive Datum (ν : Type) where
  | none
  | bool (value : Bool)
  | int (value : Int)
  | real (value : ν)
  | text (value : Phrase)
  | list (items : List (Datum ν))
  | mapping (entries : List (Datum ν × Datum ν))

namespace Datum

def typeName : Datum ν → String
  | none => "NoneType"
  | bool _ => "bool"
  | int _ => "int"
  | real _ => "float"
  | text _ => "str"
  | list _ => "list"
  | mapping _ => "dict"

/-- The text that a datum is, if it is one without surrogates. -/
def text? : Datum ν → Option String
  | text p => p.text?
  | _ => Option.none

/-- A text without its first code points; any other datum stays as it is. -/
def dropText (count : Nat) : Datum ν → Datum ν
  | text p => text (p.drop count)
  | d => d

mutual

def ofJson : Json ν → Datum ν
  | .null => none
  | .bool b => bool b
  | .int i => int i
  | .real x => real x
  | .text p => text p
  | .array items => list (ofItems items)
  | .object members => mapping (ofMembers members)

def ofItems : List (Json ν) → List (Datum ν)
  | [] => []
  | item :: rest => ofJson item :: ofItems rest

def ofMembers : List (String × Json ν) → List (Datum ν × Datum ν)
  | [] => []
  | (key, value) :: rest => (text (.ofText key), ofJson value) :: ofMembers rest

end

/-! ## Quoted form -/

def realNames : SpecialNames where
  infinity := "inf"
  undefined := "nan"

variable [Scalar ν]

mutual

def quotedChars : Datum ν → List Char
  | none => "None".toList
  | bool true => "True".toList
  | bool false => "False".toList
  | int i => (toString i).toList
  | real x => Scalar.text realNames x
  | text p => p.quotedChars
  | list [] => ['[', ']']
  | list (item :: rest) => '[' :: quotedChars item ++ quotedItems rest ++ [']']
  | mapping [] => ['\x7b', '\x7d']
  | mapping ((key, value) :: rest) =>
      '\x7b' :: quotedChars key ++ [':', ' '] ++ quotedChars value ++ quotedEntries rest ++
        ['\x7d']

def quotedItems : List (Datum ν) → List Char
  | [] => []
  | item :: rest => ',' :: ' ' :: quotedChars item ++ quotedItems rest

def quotedEntries : List (Datum ν × Datum ν) → List Char
  | [] => []
  | (key, value) :: rest =>
      ',' :: ' ' :: quotedChars key ++ [':', ' '] ++ quotedChars value ++ quotedEntries rest

end

def quoted (d : Datum ν) : String :=
  String.ofList d.quotedChars

/-- A text as it is, any other datum in its quoted form. -/
def plain : Datum ν → Phrase
  | text p => p
  | d => .ofText d.quoted

/-! ## Mappings -/

/-- A datum that cannot be looked up, as it is a collection. -/
structure KeyFault (ν : Type) where
  key : Datum ν

def KeyFault.message (fault : KeyFault ν) : String :=
  "unhashable type: " ++ Text.quoted fault.key.typeName

/-- Any datum but a list or a mapping can be a key. -/
def checkKey : Datum ν → Except (KeyFault ν) Unit
  | list items => .error ⟨list items⟩
  | mapping entries => .error ⟨mapping entries⟩
  | _ => .ok ()

/-- The exact number that a datum counts as when it is a key. -/
def number? : Datum ν → Option Magnitude
  | bool b => some (Magnitude.ofInt (if b then 1 else 0))
  | int i => some (Magnitude.ofInt i)
  | real x => some (Scalar.magnitude x)
  | _ => Option.none

/-- Whether two data are one key: equal numbers are, whatever their types. -/
def sameKey : Datum ν → Datum ν → Bool
  | none, none => true
  | text p, text q => p == q
  | d, e =>
      match d.number?, e.number? with
      | some m, some n => m.same n
      | _, _ => false

/-- The mapping with the given entries put one after the other. -/
def ofPairs (pairs : List (Datum ν × Datum ν)) : Except (KeyFault ν) (Datum ν) := do
  pairs.forM fun (key, _) => key.checkKey
  return mapping (pairs.foldl (fun es (key, value) => Entries.putBy sameKey es key value) [])

end Datum
end Palette
