/-!
# Ordered entries

A mapping whose entries keep the order in which their keys first came.  Putting
a value under a key that is there replaces the value where it stands; a new key
goes to the end.
-/

namespace Palette

namespace Entries

/-- Puts a value under a key, keys being compared by `same`. -/
def putBy (same : α → α → Bool) : List (α × β) → α → β → List (α × β)
  | [], key, value => [(key, value)]
  | (k, v) :: rest, key, value =>
      if same k key then (k, value) :: rest else (k, v) :: putBy same rest key value

variable [BEq α]

def put (entries : List (α × β)) (key : α) (value : β) : List (α × β) :=
  putBy (· == ·) entries key value

/-- The entries with those of a second list put one after the other. -/
def putAll (entries : List (α × β)) (more : List (α × β)) : List (α × β) :=
  more.foldl (fun es (key, value) => put es key value) entries

def ofList (pairs : List (α × β)) : List (α × β) :=
  putAll [] pairs

def get? (entries : List (α × β)) (key : α) : Option β :=
  (entries.find? fun (k, _) => k == key).map (·.2)

def hasKey (entries : List (α × β)) (key : α) : Bool :=
  entries.any fun (k, _) => k == key

def erase (entries : List (α × β)) (key : α) : List (α × β) :=
  entries.filter fun (k, _) => !(k == key)

end Entries
end Palette
