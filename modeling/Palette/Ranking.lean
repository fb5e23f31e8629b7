/-!
# Rankings

The positions of the items of a list in ascending order, items of one rank
staying in the order of the list, and the comparisons that follow from a strict
order and equality.
-/

namespace Palette
namespace Ranking

def sortedPositions (before : α → α → Bool) (items : List α) : List Nat :=
  (items.zipIdx.mergeSort fun a b => !before b.1 a.1).map (·.2)

/-- For each item the position of the first item that equals it. -/
def firstEqual [BEq α] (items : List α) : List Nat :=
  items.map fun item => items.findIdx (· == item)

/-- How a first item compares with a second one. -/
structure Comparison where
  less : Bool
  atMost : Bool
  equal : Bool
  greater : Bool
  atLeast : Bool

def compare [BEq α] (before : α → α → Bool) (x y : α) : Comparison where
  less := before x y
  atMost := before x y || x == y
  equal := x == y
  greater := before y x
  atLeast := before y x || x == y

end Ranking
end Palette
