import Mathlib.Algebra.Ring.Int.Defs
import Mathlib.Algebra.Ring.Nat
import Mathlib.Tactic.Common

/-!
# Floating-point numbers by their bits

NaN and the order of the numbers of the formats of 32 and 64 bits. The magnitude is all
bits but the sign, and magnitudes are ordered as numbers are; nothing is rounded here.
-/

set_option autoImplicit false

namespace WasmToLlvm.Library

/-- The magnitude of the infinities. -/
def infinity (width : Nat) : Nat := if width = 32 then 0x7F800000 else 0x7FF0000000000000

def magnitude (width bits : Nat) : Nat := bits % 2 ^ (width - 1)

def isNaN (width bits : Nat) : Bool := infinity width < magnitude width bits

def isNegative (width bits : Nat) : Bool := 2 ^ (width - 1) ≤ bits

/-- The place of a number in the order; the two zeros share one. -/
def rank (width bits : Nat) : Int :=
  if isNegative width bits then -(magnitude width bits : Int) else magnitude width bits

def floatLess (width x y : Nat) : Bool :=
  !isNaN width x && !isNaN width y && decide (rank width x < rank width y)

def floatEqual (width x y : Nat) : Bool :=
  !isNaN width x && !isNaN width y && decide (rank width x = rank width y)

def floatAtMost (width x y : Nat) : Bool :=
  !isNaN width x && !isNaN width y && decide (rank width x ≤ rank width y)

/-- One zero is positive and the other one negative. -/
def oppositeZeros (width x y : Nat) : Bool :=
  magnitude width x == 0 && magnitude width y == 0 && isNegative width x != isNegative width y

/-- Equal, or both NaN. -/
def sameFloat (width x y : Nat) : Bool := x == y || (isNaN width x && isNaN width y)

/-- Both are NaN, or neither is and they are not zeros of opposite signs. -/
def ordinary (width x y : Nat) : Bool :=
  (isNaN width x && isNaN width y) || (!isNaN width x && !isNaN width y && !oppositeZeros width x y)

section Order

variable {width x y : Nat}

theorem sameFloat_refl (width x : Nat) : sameFloat width x x = true := by
  simp [sameFloat]

/-- A number is its sign and its magnitude. -/
theorem bits_eq (positive : 0 < width) (small : x < 2 ^ width) :
    x = (if isNegative width x then 2 ^ (width - 1) else 0) + magnitude width x := by
  have double : 2 ^ width = 2 ^ (width - 1) + 2 ^ (width - 1) := by
    rw [← Nat.two_mul, ← Nat.pow_succ', Nat.succ_eq_add_one, Nat.sub_add_cancel positive]
  by_cases negative : 2 ^ (width - 1) ≤ x
  · rw [isNegative, decide_eq_true negative, if_pos rfl, magnitude, Nat.mod_eq_sub_mod negative,
      Nat.mod_eq_of_lt (by omega)]
    omega
  · rw [isNegative, decide_eq_false negative, magnitude, Nat.mod_eq_of_lt (by omega)]
    simp

/-- Numbers of one rank are equal or zeros of opposite signs. -/
theorem eq_of_rank (positive : 0 < width) (smallX : x < 2 ^ width) (smallY : y < 2 ^ width)
    (same : rank width x = rank width y) (signs : oppositeZeros width x y = false) : x = y := by
  have wholeX := bits_eq positive smallX
  have wholeY := bits_eq positive smallY
  unfold rank at same
  simp only [oppositeZeros, Bool.and_eq_false_iff, beq_eq_false_iff_ne, bne_eq_false_iff_eq] at signs
  cases negX : isNegative width x <;> cases negY : isNegative width y <;>
    simp only [negX, negY, if_true, if_false, Bool.false_eq_true, reduceCtorEq, or_false] at * <;> omega

theorem oppositeZeros_rank (opposite : oppositeZeros width x y = true) :
    rank width x = rank width y := by
  simp only [oppositeZeros, Bool.and_eq_true, beq_iff_eq] at opposite
  simp [rank, opposite.1.1, opposite.1.2]

theorem oppositeZeros_ne (opposite : oppositeZeros width x y = true) : x ≠ y := by
  intro same
  simp [oppositeZeros, same] at opposite

theorem oppositeZeros_notNaN (opposite : oppositeZeros width x y = true) :
    isNaN width x = false ∧ isNaN width y = false := by
  simp only [oppositeZeros, Bool.and_eq_true, beq_iff_eq] at opposite
  simp [isNaN, opposite.1.1, opposite.1.2]

theorem oppositeZeros_comm : oppositeZeros width x y = oppositeZeros width y x := by
  simp only [oppositeZeros]
  cases isNegative width x <;> cases isNegative width y <;> simp [Bool.and_comm]

theorem ordinary_comm : ordinary width x y = ordinary width y x := by
  simp only [ordinary, @oppositeZeros_comm width x y]
  cases isNaN width x <;> cases isNaN width y <;> rfl

/-- A number is not NaN. -/
theorem sameFloat_number (number : isNaN width x = false) : sameFloat width x y = (x == y) := by
  simp [sameFloat, number]

theorem ne_of_isNaN (number : isNaN width x = false) (nan : isNaN width y = true) : x ≠ y := by
  rintro rfl
  rw [number] at nan
  cases nan

theorem ordinary_cases (holds : ordinary width x y = true) :
    (isNaN width x = true ∧ isNaN width y = true) ∨
      (¬isNaN width x = true ∧ ¬isNaN width y = true ∧ oppositeZeros width x y = false) := by
  simpa [ordinary, and_assoc] using holds

theorem floatLess_ordinary (less : floatLess width x y = true) :
    ordinary width x y = true ∧ floatLess width y x = false := by
  simp only [floatLess, Bool.and_eq_true, Bool.not_eq_true', decide_eq_true_eq] at less
  obtain ⟨⟨nanX, nanY⟩, lower⟩ := less
  constructor
  · cases zeros : oppositeZeros width x y with
    | true => exact absurd (oppositeZeros_rank zeros) (Int.ne_of_lt lower)
    | false => simp [ordinary, nanX, nanY, zeros]
  · have notGreater : ¬rank width y < rank width x := by omega
    simp [floatLess, notGreater]

/-- Of two numbers that are not ordered, either may stand for the other just where they are
ordinary. -/
theorem sameFloat_iff_ordinary (positive : 0 < width) (smallX : x < 2 ^ width) (smallY : y < 2 ^ width)
    (less : floatLess width x y = false) (greater : floatLess width y x = false) :
    sameFloat width y x = ordinary width x y := by
  cases nanX : isNaN width x with
  | true =>
      cases nanY : isNaN width y with
      | true => simp [sameFloat, ordinary, nanX, nanY]
      | false =>
          simp [sameFloat, ordinary, nanX, nanY, ne_of_isNaN nanY nanX]
  | false =>
      cases nanY : isNaN width y with
      | true =>
          simp [sameFloat, ordinary, nanX, nanY, (ne_of_isNaN nanX nanY).symm]
      | false =>
          simp only [floatLess, nanX, nanY, Bool.not_false, Bool.true_and, decide_eq_false_iff_not] at less greater
          have same : rank width x = rank width y := by omega
          cases zeros : oppositeZeros width x y with
          | true => simp [sameFloat, ordinary, nanX, nanY, zeros, (oppositeZeros_ne zeros).symm]
          | false =>
              obtain rfl := eq_of_rank positive smallX smallY same zeros
              simp [sameFloat, ordinary, nanX, zeros]

end Order

end WasmToLlvm.Library
