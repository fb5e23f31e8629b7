/-!
# Machines

What a run finds room for: memory, the images that the image library takes, and
the stack of the interpreter, on which nested documents and templates are read
and rendered.  Nothing is assumed of where these limits lie.  All else that a
run needs is taken to be there.
-/

namespace Palette

structure Machine where
  /-- The least number of bytes that do not fit into memory. -/
  memory : Nat
  /-- Whether the image library takes an image of a width and a height. -/
  takesImage : Nat → Nat → Bool
  /-- Whether the stack is deep enough for a document. -/
  holdsDocument : List Char → Bool
  /-- Whether the stack is deep enough for a template where certain fields are truthy. -/
  holdsTemplate : String → (String → Bool) → Bool

namespace Machine

/-- A machine with the limits of the image library and a stack that is always deep
enough. -/
def usual : Machine where
  memory := 0x4000000000
  takesImage width height := width ≤ 0x1FFFFFFE && height ≤ 0x7FFFFFFF
  holdsDocument _ := true
  holdsTemplate _ _ := true

end Machine
end Palette
