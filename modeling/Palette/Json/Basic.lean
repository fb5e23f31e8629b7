import Palette.Entries
import Palette.Text.Phrase

/-!
# JSON values

A value of JSON over a type of numbers that are not whole.  A text may hold
surrogates, which have an escape.  The members of an object keep their order.
-/

namespace Palette

inductive Json (ν : Type) where
  | null
  | bool (value : Bool)
  | int (value : Int)
  | real (value : ν)
  | text (value : Phrase)
  | array (items : List (Json ν))
  | object (members : List (String × Json ν))
deriving Inhabited

namespace Json

mutual

/-- Changes the type of numbers that are not whole. -/
def mapReal (f : ν → μ) : Json ν → Json μ
  | null => null
  | bool b => bool b
  | int i => int i
  | real x => real (f x)
  | text p => text p
  | array items => array (mapItems f items)
  | object members => object (mapMembers f members)

def mapItems (f : ν → μ) : List (Json ν) → List (Json μ)
  | [] => []
  | item :: rest => mapReal f item :: mapItems f rest

def mapMembers (f : ν → μ) : List (String × Json ν) → List (String × Json μ)
  | [] => []
  | (key, value) :: rest => (key, mapReal f value) :: mapMembers f rest

end

def get? (key : String) : Json ν → Option (Json ν)
  | object members => Entries.get? members key
  | _ => none

end Json
end Palette
