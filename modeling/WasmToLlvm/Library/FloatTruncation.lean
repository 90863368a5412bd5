import WasmToLlvm.Library.FloatOrder
import WasmToLlvm.Library.Integers

/-!
# Integer parts of floating-point numbers

The integer part of a number of the formats of 32 and 64 bits, and the integers of a width
it fits in. The integer part of an infinity is taken from its bits and is too large for all
of them.
-/

set_option autoImplicit false

namespace WasmToLlvm.Library

/-- The bits of the fraction. -/
def fractionBits (width : Nat) : Nat := if width = 32 then 23 else 52

def exponentBias (width : Nat) : Nat := if width = 32 then 127 else 1023

/-- The number rounded toward zero. Numbers without a leading one have the least exponent. -/
def integerPart (width bits : Nat) : Int :=
  let exponent := magnitude width bits / 2 ^ fractionBits width
  let fraction := magnitude width bits % 2 ^ fractionBits width
  let significand := if exponent = 0 then fraction else fraction + 2 ^ fractionBits width
  let unit := exponentBias width + fractionBits width
  let whole := significand * 2 ^ (max exponent 1 - unit) / 2 ^ (unit - max exponent 1)
  if isNegative width bits then -(whole : Int) else whole

/-- The least integer of a width. -/
def leastInteger (sign : Bool) (width : Nat) : Int := if sign then -2 ^ (width - 1) else 0

def greatestInteger (sign : Bool) (width : Nat) : Int := if sign then 2 ^ (width - 1) - 1 else 2 ^ width - 1

/-- The integer part, where it is an integer of the target width. -/
def truncated? (sign : Bool) (source target bits : Nat) : Option Int :=
  if isNaN source bits then none
  else if leastInteger sign target ≤ integerPart source bits ∧ integerPart source bits ≤ greatestInteger sign target then
    some (integerPart source bits)
  else none

/-- The nearest integer of the target width. -/
def truncateSaturating (sign : Bool) (source target bits : Nat) : Nat :=
  if isNaN source bits then 0
  else wrap target (max (leastInteger sign target) (min (integerPart source bits) (greatestInteger sign target)))

/-- An integer part that fits is not changed by saturation. -/
theorem truncateSaturating_of_truncated {sign : Bool} {source target bits : Nat} {number : Int}
    (fits : truncated? sign source target bits = some number) :
    truncateSaturating sign source target bits = wrap target number := by
  unfold truncated? at fits
  unfold truncateSaturating
  split at fits
  next => cases fits
  next notNaN =>
    split at fits
    next inside =>
      rw [if_neg notNaN, Int.min_eq_left inside.2, Int.max_eq_right inside.1]
      cases fits
      rfl
    next => cases fits

end WasmToLlvm.Library
