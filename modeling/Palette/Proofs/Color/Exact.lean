import Mathlib.Data.Rat.Lemmas
import Palette.Color.Hsl

/-!
# Exact numbers

Rationals give every quotient a value, also one by zero.  An exact number is a rational or
nothing at all: a quotient by zero has no value, and neither has what is computed from it.
Where a computation in exact numbers has a value, no divisor on the way was zero.
-/

namespace Palette

/-- A rational, or nothing if a divisor was zero. -/
structure Exact where
  value? : Option Rat
deriving DecidableEq

namespace Exact

def of (x : Rat) : Exact :=
  ⟨some x⟩

def lift (f : Rat → Rat → Option Rat) (x y : Exact) : Exact :=
  ⟨x.value?.bind fun a => y.value?.bind fun b => f a b⟩

def compares (f : Rat → Rat → Bool) (x y : Exact) : Bool :=
  match x.value?, y.value? with
  | some a, some b => f a b
  | _, _ => false

def quotient? (a b : Rat) : Option Rat :=
  if b = 0 then none else some (a / b)

instance : Scalar Exact where
  add := lift fun a b => some (a + b)
  sub := lift fun a b => some (a - b)
  mul := lift fun a b => some (a * b)
  div := lift quotient?
  ofNat n := of n
  less := compares Scalar.less
  equal := compares Scalar.equal
  magnitude x := (x.value?.map Scalar.magnitude).getD .undefined
  ofHundredths negative n := of (Scalar.ofHundredths negative n)
  text names x := (x.value?.map (Scalar.text names)).getD names.undefined.toList

/-!
# Values of operations
-/

@[simp]
theorem ofNat_eq (n : Nat) : (Scalar.ofNat n : Exact) = of n :=
  rfl

@[simp]
theorem of_add (x y : Rat) : of x + of y = of (x + y) :=
  rfl

@[simp]
theorem of_sub (x y : Rat) : of x - of y = of (x - y) :=
  rfl

@[simp]
theorem of_mul (x y : Rat) : of x * of y = of (x * y) :=
  rfl

theorem of_div (x : Rat) {y : Rat} (h : y ≠ 0) : of x / of y = of (x / y) := by
  show Exact.mk (quotient? x y) = of (x / y)
  rw [quotient?, if_neg h]
  rfl

@[simp]
theorem less_of (x y : Rat) : Scalar.less (of x) (of y) = Scalar.less x y :=
  rfl

@[simp]
theorem equal_of (x y : Rat) : Scalar.equal (of x) (of y) = Scalar.equal x y :=
  rfl

@[simp]
theorem atMost_of (x y : Rat) : Scalar.atMost (of x) (of y) = Scalar.atMost x y :=
  rfl

@[simp]
theorem greater_of (x y : Rat) : Scalar.greater (of x) (of y) = of (Scalar.greater x y) := by
  rw [Scalar.greater, Scalar.greater, less_of, apply_ite of]

@[simp]
theorem lesser_of (x y : Rat) : Scalar.lesser (of x) (of y) = of (Scalar.lesser x y) := by
  rw [Scalar.lesser, Scalar.lesser, less_of, apply_ite of]

end Exact

def Hsl.map (f : ν → μ) (x : Hsl ν) : Hsl μ :=
  ⟨f x.hue, f x.saturation, f x.luminance⟩

end Palette
