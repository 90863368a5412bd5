import WasmToLlvm.Library.FloatOrder
import WasmToLlvm.Library.FloatTruncation
import WasmToLlvm.Llvm.Evaluation

/-!
# Laws of floating-point operations

What the comparisons of `fcmp`, `llvm.minnum` and `llvm.maxnum`, and the conversions toward
integers give. Where two operands are zeros of opposite signs, the result of the two
intrinsics is either.
-/

set_option autoImplicit false

namespace WasmToLlvm.Llvm

open Library

def FloatPredicate.holds (predicate : FloatPredicate) (width x y : Nat) : Bool :=
  match predicate with
  | .oeq => floatEqual width x y
  | .oge => floatAtMost width y x
  | .ogt => floatLess width y x
  | .ole => floatAtMost width x y
  | .olt => floatLess width x y

/-- The result of `llvm.minnum`, or of `llvm.maxnum` with the ranks the other way. -/
structure Chooses (width : Nat) (before : Int → Int → Prop) (x y result : Nat) : Prop where
  bothNaN : isNaN width x → isNaN width y → isNaN width result
  leftNaN : isNaN width x → ¬isNaN width y → result = y
  rightNaN : ¬isNaN width x → isNaN width y → result = x
  left : ¬isNaN width x → ¬isNaN width y → before (rank width x) (rank width y) → result = x
  right : ¬isNaN width x → ¬isNaN width y → before (rank width y) (rank width x) → result = y
  tie : ¬isNaN width x → ¬isNaN width y → rank width x = rank width y → result = x ∨ result = y

/-- The choice does not depend on the order of the operands. -/
theorem Chooses.swap {width x y result : Nat} {before : Int → Int → Prop}
    (chooses : Chooses width before x y result) :
    Chooses width before y x result where
  bothNaN nanY nanX := chooses.bothNaN nanX nanY
  leftNaN nanY numberX := chooses.rightNaN numberX nanY
  rightNaN numberY nanX := chooses.leftNaN nanX numberY
  left numberY numberX earlier := chooses.right numberX numberY earlier
  right numberY numberX later := chooses.left numberX numberY later
  tie numberY numberX same := (chooses.tie numberX numberY same.symm).symm

/-- What the language reference promises. -/
structure Floats.Lawful (floats : Floats) : Prop where
  compare : ∀ predicate width x y, floats.compare predicate width x y = predicate.holds width x y
  minnum : ∀ width x y, Chooses width (· < ·) x y (floats.pair .minnum width x y)
  maxnum : ∀ width x y, Chooses width (· > ·) x y (floats.pair .maxnum width x y)

/-! ## An instance -/

/-- The earlier one; `left` decides between zeros of opposite signs. -/
def chooseFloat (left : Bool) (width : Nat) (before : Int → Int → Prop) [DecidableRel before]
    (x y : Nat) : Nat :=
  if isNaN width x then y
  else if isNaN width y then x
  else if before (rank width x) (rank width y) then x
  else if before (rank width y) (rank width x) then y
  else if left then x else y

/-- Comparisons and choices between operands; operations that round give their first
operand here. -/
def Floats.choosing (left : Bool) : Floats where
  binary _ _ x _ := x
  neg width x := if isNegative width x then x - 2 ^ (width - 1) else x + 2 ^ (width - 1)
  unary _ _ x := x
  pair intrinsic width x y :=
    match intrinsic with
    | .minnum => chooseFloat left width (· < ·) x y
    | .maxnum => chooseFloat left width (· > ·) x y
    | _ => x
  compare predicate width x y := predicate.holds width x y
  convert _ _ _ _ := none

theorem chooseFloat_chooses (left : Bool) (width : Nat) {before : Int → Int → Prop} [DecidableRel before]
    (asymmetric : ∀ a b, before a b → ¬before b a) (x y : Nat) :
    Chooses width before x y (chooseFloat left width before x y) where
  bothNaN nanX nanY := by rwa [chooseFloat, if_pos nanX]
  leftNaN nanX _ := by rw [chooseFloat, if_pos nanX]
  rightNaN numberX nanY := by rw [chooseFloat, if_neg numberX, if_pos nanY]
  left numberX numberY earlier := by
    rw [chooseFloat, if_neg numberX, if_neg numberY, if_pos earlier]
  right numberX numberY later := by
    rw [chooseFloat, if_neg numberX, if_neg numberY, if_neg (asymmetric _ _ later), if_pos later]
  tie numberX numberY same := by
    have neither : ¬before (rank width x) (rank width y) := fun earlier =>
      asymmetric _ _ earlier (same ▸ same ▸ earlier)
    rw [chooseFloat, if_neg numberX, if_neg numberY, if_neg neither,
      if_neg fun later => asymmetric _ _ later (same ▸ same ▸ later)]
    cases left
    · exact Or.inr rfl
    · exact Or.inl rfl

theorem Floats.choosing_lawful (left : Bool) : (Floats.choosing left).Lawful where
  compare _ _ _ _ := rfl
  minnum width x y := chooseFloat_chooses left width (fun _ _ less => Int.not_lt.mpr (Int.le_of_lt less)) x y
  maxnum width x y := chooseFloat_chooses left width (fun _ _ greater => Int.not_lt.mpr (Int.le_of_lt greater)) x y

/-! ## Conversions toward integers -/

def floatToInt (sign : Bool) : CastOp := if sign then .fpToSI else .fpToUI

/-- What does not fit is poison. -/
structure Floats.Truncates (floats : Floats) : Prop where
  convert : ∀ sign source target x,
    floats.convert (floatToInt sign) source target x = (truncated? sign source target x).map (wrap target)

/-- Conversions to floating-point numbers always have a result. -/
structure Floats.Converts (floats : Floats) : Prop where
  convert : ∀ {kind source target x}, kind = .siToFP ∨ kind = .uiToFP ∨ kind = .fpTrunc ∨ kind = .fpExt →
    floats.convert kind source target x ≠ none

/-- Conversions that truncate; those that round give zero here. -/
def Floats.truncating : Floats :=
  { Floats.choosing true with
    convert := fun kind source target x =>
      match kind with
      | .fpToSI => (truncated? true source target x).map (wrap target)
      | .fpToUI => (truncated? false source target x).map (wrap target)
      | _ => some 0 }

theorem Floats.truncating_truncates : Floats.truncating.Truncates where
  convert sign source target x := by cases sign <;> rfl

theorem Floats.truncating_converts : Floats.truncating.Converts where
  convert kind := by
    rcases kind with rfl | rfl | rfl | rfl <;> exact Option.some_ne_none _

end WasmToLlvm.Llvm
