import WasmToLlvm.Library.FloatOrder

/-!
# Comparing floating-point numbers

The meaning WebAssembly gives to the comparisons of floating-point numbers and to their
minima and maxima. A result that is NaN stands for every NaN.
-/

set_option autoImplicit false

namespace WasmToLlvm.Wasm

open Library

inductive FloatRelation where
  | eq | ne | lt | gt | le | ge
  deriving DecidableEq, Repr

inductive FloatPair where
  | min | max | pmin | pmax
  deriving DecidableEq, Repr

def FloatRelation.holds (relation : FloatRelation) (width x y : Nat) : Bool :=
  match relation with
  | .eq => floatEqual width x y
  | .ne => !floatEqual width x y
  | .lt => floatLess width x y
  | .gt => floatLess width y x
  | .le => floatAtMost width x y
  | .ge => floatAtMost width y x

/-- `min` and `max` are NaN where an operand is, and tell the zeros apart. -/
def FloatPair.eval (operation : FloatPair) (width x y : Nat) : Nat :=
  match operation with
  | .min =>
      if isNaN width x || isNaN width y then infinity width + 1
      else if rank width x < rank width y then x
      else if rank width y < rank width x then y
      else if isNegative width x then x else y
  | .max =>
      if isNaN width x || isNaN width y then infinity width + 1
      else if rank width x < rank width y then y
      else if rank width y < rank width x then x
      else if isNegative width x then y else x
  | .pmin => if floatLess width y x then y else x
  | .pmax => if floatLess width x y then y else x

end WasmToLlvm.Wasm
