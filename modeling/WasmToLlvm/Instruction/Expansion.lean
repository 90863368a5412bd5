import WasmToLlvm.Instruction.LaneAccess
import WasmToLlvm.Instruction.LaneArithmetic
import WasmToLlvm.Instruction.Pointwise

/-!
# Expanded sequences

Instructions on vectors that LLVM has no single operation for.
-/

set_option autoImplicit false

namespace WasmToLlvm.Instruction

open Llvm Wasm Block Library

/-! ## The instructions -/

/-- Operations on the lanes of two vectors. -/
inductive PairOp where
  | addSatU | subSatU | avgrU
  deriving DecidableEq, Repr

def PairOp.eval (operation : PairOp) (width x y : Nat) : Nat :=
  match operation with
  | .addSatU => min (x + y) (2 ^ width - 1)
  | .subSatU => x - y
  | .avgrU => (x + y + 1) / 2

def BinaryOpcode.pairOp? : BinaryOpcode → Option (PairOp × Nat × Nat)
  | .i8x16AddSatU => some (.addSatU, 16, 8)
  | .i16x8AddSatU => some (.addSatU, 8, 16)
  | .i8x16SubSatU => some (.subSatU, 16, 8)
  | .i16x8SubSatU => some (.subSatU, 8, 16)
  | .i8x16AvgrU => some (.avgrU, 16, 8)
  | .i16x8AvgrU => some (.avgrU, 8, 16)
  | _ => none

/-- Shifts of all lanes by one count, which is taken modulo the width. -/
inductive ShiftOp where
  | shl | shrS | shrU
  deriving DecidableEq, Repr

def ShiftOp.eval (operation : ShiftOp) (width x count : Nat) : Nat :=
  match operation with
  | .shl => x * 2 ^ (count % width) % 2 ^ width
  | .shrS => wrap width (signed width x / 2 ^ (count % width))
  | .shrU => x / 2 ^ (count % width)

def BinaryOpcode.shiftOp? : BinaryOpcode → Option (ShiftOp × Nat × Nat)
  | .i8x16Shl => some (.shl, 16, 8)
  | .i16x8Shl => some (.shl, 8, 16)
  | .i32x4Shl => some (.shl, 4, 32)
  | .i64x2Shl => some (.shl, 2, 64)
  | .i8x16ShrS => some (.shrS, 16, 8)
  | .i16x8ShrS => some (.shrS, 8, 16)
  | .i32x4ShrS => some (.shrS, 4, 32)
  | .i64x2ShrS => some (.shrS, 2, 64)
  | .i8x16ShrU => some (.shrU, 16, 8)
  | .i16x8ShrU => some (.shrU, 8, 16)
  | .i32x4ShrU => some (.shrU, 4, 32)
  | .i64x2ShrU => some (.shrU, 2, 64)
  | _ => none

def UnaryOpcode.absShape? : UnaryOpcode → Option (Nat × Nat)
  | .i8x16Abs => some (16, 8)
  | .i16x8Abs => some (8, 16)
  | .i32x4Abs => some (4, 32)
  | .i64x2Abs => some (2, 64)
  | _ => none

/-- Numbers of 32 bits from all lanes of a vector. -/
inductive TestOp where
  | allTrue | bitmask
  deriving DecidableEq, Repr

def TestOp.eval (operation : TestOp) (lanes width bits : Nat) : Nat :=
  match operation with
  | .allTrue => bit ((List.range lanes).all fun index => laneAt width bits index != 0)
  | .bitmask => pack 1 ((List.range lanes).map fun index => bit (decide (signed width (laneAt width bits index) < 0)))

def UnaryOpcode.testOp? : UnaryOpcode → Option (TestOp × Nat × Nat)
  | .i8x16AllTrue => some (.allTrue, 16, 8)
  | .i16x8AllTrue => some (.allTrue, 8, 16)
  | .i32x4AllTrue => some (.allTrue, 4, 32)
  | .i64x2AllTrue => some (.allTrue, 2, 64)
  | .i8x16Bitmask => some (.bitmask, 16, 8)
  | .i16x8Bitmask => some (.bitmask, 8, 16)
  | .i32x4Bitmask => some (.bitmask, 4, 32)
  | .i64x2Bitmask => some (.bitmask, 2, 64)
  | _ => none

/-- The vectors with these lanes of integers. -/
abbrev lanesType (lanes width : Nat) : Ty := .vector lanes (.int width)

section Sequences

variable {floats : Floats} {space : Space} {setting : Setting} {p1 p2 left right : Value}
  {x y lanes width : Nat} {lane lane' : Nat → Nat}

/-! ## Steps -/

theorem lane_int_add {x y : Nat} (smallX : x < 2 ^ width) (smallY : y < 2 ^ width) :
    BinaryOperator.lane floats .add (lanesType lanes width) (some x) (some y) = some (some ((x + y) % 2 ^ width)) := by
  rw [lane_int rfl]
  exact congrArg (fun sum => some (some sum)) (toNat_add_ofNat smallX smallY)

theorem lane_int_sub {x y : Nat} (smallX : x < 2 ^ width) (smallY : y < 2 ^ width) :
    BinaryOperator.lane floats .sub (lanesType lanes width) (some x) (some y) =
      some (some (wrap width ((x : Int) - y))) := by
  rw [lane_int rfl]
  exact congrArg (fun difference => some (some difference)) (toNat_sub_ofNat smallX smallY)

theorem createAdd_gives (isLeft : HasLanes space setting left (lanesType lanes width) lane)
    (isRight : HasLanes space setting right (lanesType lanes width) lane') :
    GivesLanes floats space setting (createBinary .add left right) (lanesType lanes width)
      fun index => (lane index + lane' index) % 2 ^ width :=
  createBinary_gives isLeft isRight
    (fun index inside => lane_int_add (isLeft.small index inside) (isRight.small index inside))
    fun _ _ => Nat.mod_lt _ (Nat.two_pow_pos width)

theorem createSub_gives (isLeft : HasLanes space setting left (lanesType lanes width) lane)
    (isRight : HasLanes space setting right (lanesType lanes width) lane') :
    GivesLanes floats space setting (createBinary .sub left right) (lanesType lanes width)
      fun index => wrap width ((lane index : Int) - lane' index) :=
  createBinary_gives isLeft isRight
    (fun index inside => lane_int_sub (isLeft.small index inside) (isRight.small index inside))
    fun _ _ => wrap_lt

theorem createUgt_gives (isLeft : HasLanes space setting left (lanesType lanes width) lane)
    (isRight : HasLanes space setting right (lanesType lanes width) lane') :
    GivesLanes floats space setting (createICmp .ugt left right) (lanesType lanes 1)
      fun index => bit (decide (lane' index < lane index)) :=
  createICmp_gives isLeft isRight rfl rfl fun index inside =>
    ult_toNat (isRight.small index inside) (isLeft.small index inside)

/-! ## Saturation -/

/-- A sum is smaller than an operand just where it has wrapped around. -/
theorem saturated_sum (smallX : x < 2 ^ width) (smallY : y < 2 ^ width) :
    (if decide ((x + y) % 2 ^ width < x) = true then 2 ^ width - 1 else (x + y) % 2 ^ width) =
      PairOp.eval .addSatU width x y := by
  simp only [decide_eq_true_eq, PairOp.eval]
  by_cases fits : x + y < 2 ^ width
  · rw [Nat.mod_eq_of_lt fits, if_neg (by omega)]
    omega
  · have wrapped : (x + y) % 2 ^ width = x + y - 2 ^ width := by
      rw [Nat.mod_eq_sub_mod (by omega), Nat.mod_eq_of_lt (by omega)]
    rw [wrapped, if_pos (by omega)]
    omega

/-- The larger operand less the second one. -/
theorem saturated_difference (smallX : x < 2 ^ width) :
    wrap width (((if decide (y < x) = true then x else y : Nat) : Int) - y) = PairOp.eval .subSatU width x y := by
  simp only [decide_eq_true_eq, PairOp.eval]
  split
  · have difference : (x : Int) - y = (x - y : Nat) := by omega
    rw [difference, wrap_natCast, Nat.mod_eq_of_lt (by omega)]
  · have nothing : x - y = 0 := by omega
    rw [Int.sub_self, nothing, wrap]
    rfl

theorem createAddSatU_gives (isX : IsV128 space setting p2 x) (isY : IsV128 space setting p1 y) :
    GivesLanes floats space setting (createAddSatU (lanesType lanes width) p1 p2) (lanesType lanes width)
      fun index => PairOp.eval .addSatU width (laneAt width x index) (laneAt width y index) := by
  unfold createAddSatU
  refine (bitCast_gives isY _).andThen fun later isRight => ?_
  refine (bitCast_gives (isX.later later) _).andThen fun later isLeft => ?_
  have isRight := isRight.later later
  refine (createAdd_gives isLeft isRight).andThen fun later isSum => ?_
  have isLeft := isLeft.later later
  refine (createUgt_gives isLeft isSum).andThen fun later wraps => ?_
  refine (createSelect_gives wraps hasLanes_allOnes (isSum.later later) rfl rfl).congr fun index inside => ?_
  exact saturated_sum laneAt_lt laneAt_lt

theorem createSubSatU_gives (isX : IsV128 space setting p2 x) (isY : IsV128 space setting p1 y) :
    GivesLanes floats space setting (createSubSatU (lanesType lanes width) p1 p2) (lanesType lanes width)
      fun index => PairOp.eval .subSatU width (laneAt width x index) (laneAt width y index) := by
  unfold createSubSatU
  refine (bitCast_gives isY _).andThen fun later isRight => ?_
  refine (bitCast_gives (isX.later later) _).andThen fun later isLeft => ?_
  have isRight := isRight.later later
  refine (createUgt_gives isLeft isRight).andThen fun later isFlag => ?_
  have isLeft := isLeft.later later
  have isRight := isRight.later later
  refine (createSelect_gives isFlag isLeft isRight rfl rfl).andThen fun later isLarger => ?_
  refine (createSub_gives isLarger (isRight.later later)).congr fun index inside => ?_
  exact saturated_difference laneAt_lt

/-! ## Shifts -/

/-- The operator of LLVM. -/
def ShiftOp.operator : ShiftOp → BinaryOperator
  | .shl => .shl
  | .shrS => .ashr
  | .shrU => .lshr

theorem toNat_shl_ofNat {x count : Nat} (smallX : x < 2 ^ width) :
    (BitVec.ofNat width x <<< count).toNat = x * 2 ^ count % 2 ^ width := by
  rw [BitVec.toNat_shiftLeft, toNat_ofNat smallX, Nat.shiftLeft_eq]

theorem toNat_lshr_ofNat {x count : Nat} (smallX : x < 2 ^ width) :
    (BitVec.ofNat width x >>> count).toNat = x / 2 ^ count := by
  rw [BitVec.toNat_ushiftRight, toNat_ofNat smallX, Nat.shiftRight_eq_div_pow]

theorem lane_int_shift (operation : ShiftOp) {x count : Nat} (smallX : x < 2 ^ width) (inside : count < width) :
    BinaryOperator.lane floats operation.operator (lanesType lanes width) (some x) (some count) =
      some (some (operation.eval width x count)) := by
  have smallCount : count < 2 ^ width := Nat.lt_trans inside Nat.lt_two_pow_self
  have shifts : ∀ value : Nat, (if count < width then (some value : Lane) else none) = some value := fun _ => if_pos inside
  cases operation with
  | shl =>
      rw [lane_int rfl, ShiftOp.operator, BinaryOperator.onInt]
      simp only [Ty.laneBits, Ty.scalar, Ty.bits, toNat_ofNat smallCount, shifts, ShiftOp.eval, Nat.mod_eq_of_lt inside]
      exact congrArg (fun shifted => some (some shifted)) (toNat_shl_ofNat smallX)
  | shrS =>
      rw [lane_int rfl, ShiftOp.operator, BinaryOperator.onInt]
      simp only [Ty.laneBits, Ty.scalar, Ty.bits, toNat_ofNat smallCount, shifts, toNat_sshiftRight_ofNat smallX, ShiftOp.eval,
        Nat.mod_eq_of_lt inside]
  | shrU =>
      rw [lane_int rfl, ShiftOp.operator, BinaryOperator.onInt]
      simp only [Ty.laneBits, Ty.scalar, Ty.bits, toNat_ofNat smallCount, shifts, ShiftOp.eval, Nat.mod_eq_of_lt inside]
      exact congrArg (fun shifted => some (some shifted)) (toNat_lshr_ofNat smallX)

theorem ShiftOp.eval_lt (operation : ShiftOp) {x count : Nat} (smallX : x < 2 ^ width) :
    operation.eval width x count < 2 ^ width := by
  cases operation with
  | shl => exact Nat.mod_lt _ (Nat.two_pow_pos width)
  | shrS => exact wrap_lt
  | shrU => exact Nat.lt_of_le_of_lt (Nat.div_le_self _ _) smallX

theorem createShift_gives (operation : ShiftOp) (isLeft : HasLanes space setting left (lanesType lanes width) lane)
    (isRight : HasLanes space setting right (lanesType lanes width) lane')
    (inside : ∀ index < lanes, lane' index < width) :
    GivesLanes floats space setting (createBinary operation.operator left right) (lanesType lanes width)
      fun index => operation.eval width (lane index) (lane' index) :=
  createBinary_gives isLeft isRight
    (fun index low => lane_int_shift operation (isLeft.small index low) (inside index low))
    fun index low => operation.eval_lt (isLeft.small index low)

theorem ShiftOp.eval_mod (operation : ShiftOp) {x count : Nat} :
    operation.eval width x (count % width) = operation.eval width x count := by
  cases operation with
  | shl => rw [ShiftOp.eval, ShiftOp.eval, Nat.mod_mod]
  | shrS => rw [ShiftOp.eval, ShiftOp.eval, Nat.mod_mod]
  | shrU => rw [ShiftOp.eval, ShiftOp.eval, Nat.mod_mod]

theorem hasLanes_int {bits : Nat} (small : bits < 2 ^ width) :
    HasLanes space setting (.int width bits) (.int width) fun _ => bits :=
  .constant rfl (fun _ => by rw [Value.datum_int, Nat.mod_eq_of_lt small]; rfl) (fun _ _ isInst => by cases isInst)
    fun _ _ => small

theorem IsInt.hasLanes {value : Value} {bits : Nat} (isInt : IsInt space setting value (width, bits)) :
    HasLanes space setting value (.int width) fun _ => bits :=
  ⟨isInt.holds, fun _ _ => isInt.small⟩

/-- The mask of a width that is a power of two takes the remainder. -/
theorem createAnd_mask_gives {value : Value} {count exponent wide : Nat} (power : width = 2 ^ exponent)
    (fits : width ≤ 2 ^ wide) (isCount : HasLanes space setting value (.int wide) fun _ => count) :
    GivesLanes floats space setting (createBinary .and value (.int value.type.bits (width - 1))) (.int wide)
      fun _ => count % width := by
  have positive : 0 < width := power ▸ Nat.two_pow_pos exponent
  have isMask : HasLanes space setting (.int value.type.bits (width - 1)) (.int wide) fun _ => width - 1 := by
    rw [isCount.holds.type]
    exact hasLanes_int (by simp only [Ty.bits]; omega)
  refine createBinary_gives isCount isMask (fun index inside => ?_) fun index inside => ?_
  · have masked : (BitVec.ofNat wide count &&& BitVec.ofNat wide (width - 1)).toNat = count % width := by
      have smallCount : count < 2 ^ wide := isCount.small index inside
      rw [BitVec.toNat_and, toNat_ofNat smallCount, toNat_ofNat (by omega), power,
        Nat.and_two_pow_sub_one_eq_mod]
    exact congrArg (fun lane => some (some lane)) masked
  · exact Nat.lt_of_le_of_lt (Nat.mod_le _ _) (isCount.small index inside)

theorem createZExtOrTrunc_gives {value : Value} {count wide : Nat} (small : count < 2 ^ width)
    (isCount : HasLanes space setting value (.int wide) fun _ => count) :
    GivesLanes floats space setting (createZExtOrTrunc value (.int width)) (.int width) fun _ => count := by
  unfold createZExtOrTrunc
  rw [isCount.holds.type]
  by_cases wider : (Ty.int wide).laneBits < (Ty.int width).laneBits
  · rw [if_pos wider]
    have different : Ty.int wide ≠ .int width := fun same => absurd (Ty.int.inj same) (Nat.ne_of_lt wider)
    exact createCast_gives isCount different rfl (by simp) (fun _ _ => rfl) fun _ _ => small
  by_cases narrower : (Ty.int width).laneBits < (Ty.int wide).laneBits
  · rw [if_neg wider, if_pos narrower]
    have different : Ty.int wide ≠ .int width := fun same => absurd (Ty.int.inj same) (Nat.ne_of_gt narrower)
    refine createCast_gives isCount different rfl (by simp) (fun _ _ => ?_) fun _ _ => small
    exact congrArg some (Nat.mod_eq_of_lt small)
  · have same : wide = width := Nat.le_antisymm (Nat.le_of_not_lt narrower) (Nat.le_of_not_lt wider)
    rw [if_neg wider, if_neg narrower]
    exact same ▸ GivesLanes.done isCount

theorem emitSimdShiftOp_gives (operation : ShiftOp) {count exponent : Nat} (power : width = 2 ^ exponent)
    (fits : width ≤ 2 ^ 32) (some_ : 0 < lanes) (isX : IsV128 space setting p2 x)
    (isCount : IsInt space setting p1 (32, count)) :
    GivesLanes floats space setting (emitSimdShiftOp (lanesType lanes width) p1 p2 operation.operator)
      (lanesType lanes width) fun index => operation.eval width (laneAt width x index) count := by
  have positive : 0 < width := power ▸ Nat.two_pow_pos exponent
  have inside : count % width < width := Nat.mod_lt _ positive
  have small : count % width < 2 ^ width := Nat.lt_trans inside Nat.lt_two_pow_self
  unfold emitSimdShiftOp
  refine (createAnd_mask_gives power fits isCount.hasLanes).andThen fun later isMask => ?_
  have isX := isX.later later
  refine (createZExtOrTrunc_gives small isMask).andThen fun later isCount => ?_
  have isX := isX.later later
  refine (createVectorSplat_gives some_ isCount.holds small).andThen fun later isRight => ?_
  refine (bitCast_gives (isX.later later) _).andThen fun later isLeft => ?_
  refine (createShift_gives operation isLeft (isRight.later later) fun _ _ => inside).congr fun index low => ?_
  exact operation.eval_mod

/-! ## Averages -/

theorem createCast_zext_gives {wide : Nat} {value : Value} (isValue : HasLanes space setting value (lanesType lanes width) lane)
    (wider : width < wide) :
    GivesLanes floats space setting (createCast .zext value (lanesType lanes wide)) (lanesType lanes wide) lane := by
  refine createCast_gives isValue ?_ rfl (by simp) (fun _ _ => rfl) fun index inside => ?_
  · intro same
    injection same with _ sameElement
    injection sameElement with sameWidth
    omega
  · exact Nat.lt_of_lt_of_le (isValue.small index inside) (Nat.pow_le_pow_right (by decide) (Nat.le_of_lt wider))

theorem createCast_trunc_gives {narrow : Nat} {value : Value}
    (isValue : HasLanes space setting value (lanesType lanes width) lane) (narrower : narrow < width) :
    GivesLanes floats space setting (createCast .trunc value (lanesType lanes narrow)) (lanesType lanes narrow)
      fun index => lane index % 2 ^ narrow := by
  refine createCast_gives isValue ?_ rfl (by simp) (fun _ _ => rfl) fun _ _ => Nat.mod_lt _ (Nat.two_pow_pos narrow)
  intro same
  injection same with _ sameElement
  injection sameElement with sameWidth
  omega

/-- At twice the width nothing wraps around. -/
theorem average (smallX : x < 2 ^ width) (smallY : y < 2 ^ width) (positive : 0 < width) :
    ShiftOp.eval .shrU (2 * width) (((y + x) % 2 ^ (2 * width) + 1) % 2 ^ (2 * width)) 1 % 2 ^ width =
      PairOp.eval .avgrU width x y := by
  have double : 2 ^ (2 * width) = 2 ^ width * 2 ^ width := by rw [Nat.two_mul, Nat.pow_add]
  have half : 2 ^ 1 ≤ 2 ^ width := Nat.pow_le_pow_right (by decide) positive
  have two : 2 * 2 ^ width ≤ 2 ^ width * 2 ^ width := Nat.mul_le_mul_right _ half
  have fits : y + x + 1 < 2 ^ (2 * width) := by omega
  have one : 1 % (2 * width) = 1 := Nat.mod_eq_of_lt (by omega)
  rw [Nat.mod_eq_of_lt (Nat.lt_of_succ_lt fits), Nat.mod_eq_of_lt fits]
  simp only [ShiftOp.eval, PairOp.eval, one, Nat.pow_one, Nat.add_comm y x]
  exact Nat.mod_eq_of_lt (by omega)

theorem createAvgrU_gives (isX : IsV128 space setting p2 x) (isY : IsV128 space setting p1 y) (positive : 1 < width) :
    GivesLanes floats space setting (createAvgrU (lanesType lanes width) (lanesType lanes (2 * width)) p1 p2)
      (lanesType lanes width)
      fun index => PairOp.eval .avgrU width (laneAt width x index) (laneAt width y index) := by
  have one : 1 % 2 ^ (2 * width) = 1 := Nat.mod_eq_of_lt (Nat.one_lt_two_pow (by omega))
  have wider : width < 2 * width := by omega
  unfold createAvgrU
  refine (bitCast_gives isX _).andThen fun later isRight => ?_
  refine (bitCast_gives (isY.later later) _).andThen fun later isLeft => ?_
  refine (createCast_zext_gives (isRight.later later) wider).andThen fun later isRight => ?_
  refine (createCast_zext_gives (isLeft.later later) wider).andThen fun later isLeft => ?_
  refine (createAdd_gives isLeft (isRight.later later)).andThen fun _ isSum => ?_
  refine (createAdd_gives isSum hasLanes_splatConstant).andThen fun _ isSum => ?_
  refine (createShift_gives .shrU isSum hasLanes_splatConstant fun _ _ => by rw [one]; omega).andThen fun _ isHalf => ?_
  refine (createCast_trunc_gives isHalf wider).congr fun index inside => ?_
  simp only [one]
  exact average laneAt_lt laneAt_lt (by omega)

/-! ## Absolute values -/

/-- The absolute value of a signed number; that of the least one wraps around. -/
def absolute (width x : Nat) : Nat := wrap width (signed width x).natAbs

theorem createSlt_zero_gives {value : Value} (isValue : HasLanes space setting value (lanesType lanes width) lane) :
    GivesLanes floats space setting (createICmp .slt value (.null (lanesType lanes width))) (lanesType lanes 1)
      fun index => bit (decide (signed width (lane index) < 0)) := by
  refine createICmp_gives isValue hasLanes_null rfl rfl fun index inside => ?_
  have zero : signed width 0 = 0 := by
    unfold signed
    rw [Nat.mul_zero, if_pos (Nat.two_pow_pos width)]
    rfl
  have compared : IntPredicate.holds .slt width (lane index) 0 = decide (signed width (lane index) < signed width 0) :=
    slt_signed (isValue.small index inside) (Nat.two_pow_pos width)
  rw [zero] at compared
  exact compared

theorem selected_absolute (small : x < 2 ^ width) :
    (if decide (signed width x < 0) = true then wrap width (((0 : Nat) : Int) - x) else x) = absolute width x := by
  unfold absolute
  simp only [decide_eq_true_eq]
  split
  next negative =>
    have magnitude : ((signed width x).natAbs : Int) = 0 - signed width x := by omega
    rw [magnitude, ← wrap_sub_signed]
  next positive =>
    have magnitude : ((signed width x).natAbs : Int) = signed width x := by omega
    rw [magnitude, wrap_signed small]

theorem createNeg_gives {value : Value} (isValue : HasLanes space setting value (lanesType lanes width) lane) :
    GivesLanes floats space setting (createNeg value) (lanesType lanes width)
      fun index => wrap width (((0 : Nat) : Int) - lane index) := by
  unfold createNeg
  rw [isValue.holds.type]
  exact createSub_gives hasLanes_null isValue

theorem createAbs_gives (isX : IsV128 space setting p1 x) :
    GivesLanes floats space setting (createAbs (lanesType lanes width) p1) (lanesType lanes width)
      fun index => absolute width (laneAt width x index) := by
  unfold createAbs
  refine (bitCast_gives isX _).andThen fun later isValue => ?_
  refine (createSlt_zero_gives isValue).andThen fun later isNegative => ?_
  have isValue := isValue.later later
  refine (createNeg_gives isValue).andThen fun later isNegated => ?_
  refine (createSelect_gives (isNegative.later later) isNegated (isValue.later later) rfl rfl).congr
    fun index inside => ?_
  exact selected_absolute laneAt_lt

/-! ## Tests -/

theorem createExtractElement_gives {vector : Value} {index : Nat}
    (isVector : HasLanes space setting vector (lanesType lanes width) lane) (inside : index < lanes)
    (small : index < 2 ^ 64) :
    GivesLanes floats space setting (createExtractElement vector index) (.int width) fun _ => lane index where
  yields := by
    have computes : Computes floats space setting (createExtractElement vector index) (.int width) _ :=
      createExtractElement_computes isVector.holds small
    have extracted : (Datum.ofLanes lanes lane)[index]?.join = some (lane index) :=
      congrArg Option.join (Datum.ofLanes_getElem? inside)
    have lanes_ : Computes floats space setting (createExtractElement vector index) (.int width)
        (some [some (lane index)]) := extracted ▸ computes
    exact lanes_.yields (createExtractElement_quiet ..)
  small _ _ := isVector.small index inside

theorem createNe_zero_gives {value : Value} (isValue : HasLanes space setting value (.int width) lane) :
    GivesLanes floats space setting (createICmp .ne value (.null (.int width))) (.int 1)
      fun index => bit (lane index != 0) := by
  exact createICmp_gives isValue hasLanes_null rfl rfl fun _ _ => rfl

theorem createAnd_bit_gives {first second : Bool} (isLeft : HasLanes space setting left (.int 1) fun _ => bit first)
    (isRight : HasLanes space setting right (.int 1) fun _ => bit second) :
    GivesLanes floats space setting (createBinary .and left right) (.int 1) fun _ => bit (first && second) := by
  refine createBinary_gives isLeft isRight (fun _ _ => ?_) fun _ _ => ?_
  · cases first <;> cases second <;> rfl
  · cases first <;> cases second <;> decide

/-- The loop has tested the lanes below `index`. -/
theorem createAllTrueLanes_gives {vector result : Value} {remaining index : Nat} {tested : Bool}
    (isVector : HasLanes space setting vector (lanesType lanes width) lane) (few : lanes ≤ 2 ^ 64)
    (isResult : HasLanes space setting result (.int 1) fun _ => bit tested) (inside : index + remaining ≤ lanes) :
    GivesLanes floats space setting (createAllTrueLanes vector (.null (.int width)) remaining index result) (.int 1)
      fun _ => bit (tested && (List.range' index remaining).all fun index => lane index != 0) := by
  induction remaining generalizing setting index tested result with
  | zero =>
      refine (GivesLanes.done isResult).congr fun _ _ => ?_
      rw [List.range'_zero, List.all_nil, Bool.and_true]
  | succ remaining ih =>
      have low : index < lanes := by omega
      unfold createAllTrueLanes
      refine (createExtractElement_gives isVector low (Nat.lt_of_lt_of_le low few)).andThen fun later isScalar => ?_
      have isVector := isVector.later later
      have isResult := isResult.later later
      refine (createNe_zero_gives isScalar).andThen fun later isNonzero => ?_
      have isVector := isVector.later later
      have isResult := isResult.later later
      refine (createAnd_bit_gives isResult isNonzero).andThen fun later isResult => ?_
      refine (ih (isVector.later later) isResult (by omega)).congr fun _ _ => ?_
      rw [List.range'_succ, List.all_cons, Bool.and_assoc]

theorem createZExt_int_gives {value : Value} {wide : Nat} (isValue : HasLanes space setting value (.int width) lane)
    (wider : width < wide) : GivesLanes floats space setting (createCast .zext value (.int wide)) (.int wide) lane := by
  refine createCast_gives isValue ?_ rfl (by simp) (fun _ _ => rfl) fun index inside => ?_
  · intro same
    injection same with sameWidth
    omega
  · exact Nat.lt_of_lt_of_le (isValue.small index inside) (Nat.pow_le_pow_right (by decide) (Nat.le_of_lt wider))

theorem createAllTrue_gives {vector : Value} (isVector : HasLanes space setting vector (lanesType lanes width) lane)
    (positive : 0 < lanes) (few : lanes ≤ 2 ^ 64) :
    GivesLanes floats space setting (createAllTrue vector (lanesType lanes width)) (.int 32)
      fun _ => bit ((List.range lanes).all fun index => lane index != 0) := by
  unfold createAllTrue
  have same : GivesLanes floats space setting (createCast .bitCast vector (lanesType lanes width))
      (lanesType lanes width) lane :=
    ⟨Computes.yields (createCast_same isVector.holds) (createCast_quiet ..), isVector.small⟩
  refine same.andThen fun later isVector => ?_
  refine (createExtractElement_gives isVector positive (by decide)).andThen fun later isScalar => ?_
  have isVector := isVector.later later
  refine (createNe_zero_gives isScalar).andThen fun later isNonzero => ?_
  refine (createAllTrueLanes_gives (isVector.later later) few isNonzero (Nat.le_of_eq (Nat.add_sub_cancel' positive))).andThen
    fun later isResult => ?_
  refine (createZExt_int_gives isResult (by decide)).congr fun _ _ => ?_
  obtain ⟨more, rfl⟩ : ∃ more, lanes = more + 1 := ⟨lanes - 1, (Nat.sub_add_cancel positive).symm⟩
  rw [List.range_eq_range', List.range'_succ, List.all_cons]
  rfl

/-- Lane 0 is the lowest bit. -/
theorem bitCast_mask_gives {mask : Value} (isMask : HasLanes space setting mask (lanesType lanes 1) lane) :
    GivesLanes floats space setting (createCast .bitCast mask (.int lanes)) (.int lanes)
      fun _ => pack 1 ((List.range lanes).map lane) := by
  have bits : ∀ number ∈ (List.range lanes).map lane, number < 2 ^ 1 := by
    intro number member
    obtain ⟨index, low, rfl⟩ := List.mem_map.mp member
    exact isMask.small index (List.mem_range.mp low)
  have small : pack 1 ((List.range lanes).map lane) < 2 ^ lanes := by
    have bound := pack_lt bits
    rwa [Nat.one_mul, List.length_map, List.length_range] at bound
  have regrouped : CastOp.datum floats .bitCast (lanesType lanes 1) (.int lanes) (Datum.ofLanes lanes lane) =
      [some (pack 1 ((List.range lanes).map lane))] := by
    have whole : (Datum.ofLanes lanes lane).bits? (lanesType lanes 1) = some (pack 1 ((List.range lanes).map lane)) := by
      have listed : Datum.ofLanes lanes lane = ((List.range lanes).map lane).map some := by
        rw [List.map_map]
        rfl
      rw [Datum.bits?, listed, mapM_some]
      rfl
    simp only [CastOp.datum, whole]
    exact Datum.ofBits_int small
  refine ⟨?_, fun _ _ => small⟩
  have computes : Computes floats space setting (createCast .bitCast mask (.int lanes)) (.int lanes) _ :=
    createCast_computes isMask.holds (by simp)
  have cast : Computes floats space setting (createCast .bitCast mask (.int lanes)) (.int lanes)
      (some [some (pack 1 ((List.range lanes).map lane))]) := regrouped ▸ computes
  exact cast.yields (createCast_quiet ..)

theorem createBitmask_gives (isX : IsV128 space setting p1 x) (few : lanes < 32) :
    GivesLanes floats space setting (createBitmask (lanesType lanes width) p1) (.int 32)
      fun _ => TestOp.eval .bitmask lanes width x := by
  unfold createBitmask
  refine (bitCast_gives isX _).andThen fun later isOperand => ?_
  refine (createSlt_zero_gives isOperand).andThen fun later isMask => ?_
  refine (bitCast_mask_gives isMask).andThen fun later isBits => ?_
  exact createZExt_int_gives isBits few

/-! ## Types -/

theorem IsV128.bitCast_types {value : Value} (isX : IsV128 space setting value x) (size : lanes * width = 128) :
    Types (createCast .bitCast value (lanesType lanes width)) (lanesType lanes width) True :=
  Instruction.bitCast_types (isX.size.trans size.symm) isX.scalar (Or.inl rfl)

theorem createInt_types (operator : BinaryOperator) (integer : operator.isFloat = false)
    (isLeft : left.type = lanesType lanes width) (isRight : right.type = lanesType lanes width) :
    Types (createBinary operator left right) (lanesType lanes width) True := by
  refine (createBinary_types operator isLeft isRight).congr (iff_of_true ?_ trivial)
  rw [integer]
  rfl

theorem createAddSatU_types (isX : IsV128 space setting p2 x) (isY : IsV128 space setting p1 y)
    (size : lanes * width = 128) : Types (createAddSatU (lanesType lanes width) p1 p2) (lanesType lanes width) True := by
  unfold createAddSatU
  refine (isY.bitCast_types size).andThen fun right isRight => ?_
  refine (isX.bitCast_types size).andThen fun left isLeft => ?_
  refine (createInt_types .add rfl isLeft isRight).andThen fun add isSum => ?_
  refine (createICmp_types .ugt isLeft isSum rfl).andThen fun wraps isTest => ?_
  exact createSelect_types isTest rfl isSum

theorem createSubSatU_types (isX : IsV128 space setting p2 x) (isY : IsV128 space setting p1 y)
    (size : lanes * width = 128) : Types (createSubSatU (lanesType lanes width) p1 p2) (lanesType lanes width) True := by
  unfold createSubSatU
  refine (isY.bitCast_types size).andThen fun right isRight => ?_
  refine (isX.bitCast_types size).andThen fun left isLeft => ?_
  refine (createICmp_types .ugt isLeft isRight rfl).andThen fun flag isTest => ?_
  refine (createSelect_types isTest isLeft isRight).andThen fun larger isLarger => ?_
  exact createInt_types .sub rfl isLarger isRight

theorem zext_accepts {source target : Ty} (shape : source.sameShape target = true) (int : source.scalar.isInt = true)
    (int' : target.scalar.isInt = true) (wider : source.laneBits < target.laneBits) :
    CastOp.accepts .zext source target = true := by
  rw [CastOp.accepts, shape, int, int', decide_eq_true wider]
  rfl

theorem trunc_accepts {source target : Ty} (shape : source.sameShape target = true) (int : source.scalar.isInt = true)
    (int' : target.scalar.isInt = true) (narrower : target.laneBits < source.laneBits) :
    CastOp.accepts .trunc source target = true := by
  rw [CastOp.accepts, shape, int, int', decide_eq_true narrower]
  rfl

theorem lanesType_sameShape {width' : Nat} : (lanesType lanes width).sameShape (lanesType lanes width') = true := by
  simp [Ty.sameShape, Ty.isVector, Ty.lanes]

theorem createResize_types {kind : CastOp} {value : Value} {wide : Nat} (isValue : value.type = lanesType lanes width)
    (accepts : kind.accepts (lanesType lanes width) (lanesType lanes wide) = true) (different : width ≠ wide) :
    Types (createCast kind value (lanesType lanes wide)) (lanesType lanes wide) True := by
  refine (createCast_types kind isValue fun same => ?_).congr (iff_of_true accepts trivial)
  injection same with _ sameElement
  exact different (Ty.int.inj sameElement)

theorem createAvgrU_types (isX : IsV128 space setting p2 x) (isY : IsV128 space setting p1 y)
    (size : lanes * width = 128) :
    Types (createAvgrU (lanesType lanes width) (lanesType lanes (2 * width)) p1 p2) (lanesType lanes width) True := by
  have wider : width < 2 * width := by
    cases width with
    | zero => cases size
    | succ width => omega
  have widens : CastOp.accepts .zext (lanesType lanes width) (lanesType lanes (2 * width)) = true :=
    zext_accepts lanesType_sameShape rfl rfl wider
  have narrows : CastOp.accepts .trunc (lanesType lanes (2 * width)) (lanesType lanes width) = true :=
    trunc_accepts lanesType_sameShape rfl rfl wider
  unfold createAvgrU
  refine (isX.bitCast_types size).andThen fun right isRight => ?_
  refine (isY.bitCast_types size).andThen fun left isLeft => ?_
  refine (createResize_types isRight widens (Nat.ne_of_lt wider)).andThen fun rightZExt isRight => ?_
  refine (createResize_types isLeft widens (Nat.ne_of_lt wider)).andThen fun leftZExt isLeft => ?_
  refine (createInt_types .add rfl isLeft isRight).andThen fun sum isSum => ?_
  refine (createInt_types .add rfl isSum rfl).andThen fun sum isSum => ?_
  refine (createInt_types .lshr rfl isSum rfl).andThen fun half isHalf => ?_
  exact createResize_types isHalf narrows (Nat.ne_of_gt wider)

theorem createZExtOrTrunc_types {value : Value} {wide : Nat} (isValue : value.type = .int wide) :
    Types (createZExtOrTrunc value (.int width)) (.int width) True := by
  unfold createZExtOrTrunc
  rw [isValue]
  by_cases wider : (Ty.int wide).laneBits < (Ty.int width).laneBits
  · have different : Ty.int wide ≠ .int width := fun same => absurd (Ty.int.inj same) (Nat.ne_of_lt wider)
    rw [if_pos wider]
    exact (createCast_types .zext isValue different).congr (iff_of_true (zext_accepts rfl rfl rfl wider) trivial)
  by_cases narrower : (Ty.int width).laneBits < (Ty.int wide).laneBits
  · have different : Ty.int wide ≠ .int width := fun same => absurd (Ty.int.inj same) (Nat.ne_of_gt narrower)
    rw [if_neg wider, if_pos narrower]
    exact (createCast_types .trunc isValue different).congr (iff_of_true (trunc_accepts rfl rfl rfl narrower) trivial)
  · have same : wide = width := Nat.le_antisymm (Nat.le_of_not_lt narrower) (Nat.le_of_not_lt wider)
    rw [if_neg wider, if_neg narrower]
    exact .done (same ▸ isValue)

theorem createShuffleVector_types {element : Ty} (mask : List (Option Nat)) (isLeft : left.type = .vector lanes element)
    (isRight : right.type = .vector lanes element) :
    Types (createShuffleVector left right mask) (.vector mask.length element) True := by
  have types := create_types (.op (.shuffleVector mask) (.vector mask.length left.type.scalar) [left, right])
  rw [Plain.type, isLeft] at types
  rw [createShuffleVector, createOp, isLeft]
  refine types.congr (iff_of_true ?_ trivial)
  simp [Plain.wellTyped, Operation.wellTyped, isLeft, isRight, Ty.isVector, Ty.scalar]

theorem createVectorSplat_types {value : Value} {element : Ty} (isValue : value.type = element) :
    Types (createVectorSplat lanes value) (.vector lanes element) True := by
  unfold createVectorSplat
  rw [isValue]
  have inserted : Types (createInsertElement (.undef (.vector lanes element)) value 0) (.vector lanes element) True :=
    (createInsertElement_types rfl isValue).congr (iff_of_true ⟨rfl, rfl⟩ trivial)
  refine inserted.andThen fun vector isVector => ?_
  have shuffled := createShuffleVector_types (List.replicate lanes (some 0)) isVector
    (show (Value.undef (.vector lanes element)).type = _ from rfl)
  rwa [List.length_replicate] at shuffled

theorem emitSimdShiftOp_types (operation : ShiftOp) (isX : IsV128 space setting p2 x) (isCount : p1.type = .int 32)
    (size : lanes * width = 128) :
    Types (emitSimdShiftOp (lanesType lanes width) p1 p2 operation.operator) (lanesType lanes width) True := by
  have integer : operation.operator.isFloat = false := by cases operation <;> rfl
  unfold emitSimdShiftOp
  rw [isCount]
  have masked : Types (createBinary .and p1 (.int 32 (width - 1))) (.int 32) True :=
    (createBinary_types .and isCount rfl).congr (iff_of_true rfl trivial)
  refine masked.andThen fun mask isMask => ?_
  refine (createZExtOrTrunc_types isMask).andThen fun count isCount => ?_
  refine (createVectorSplat_types isCount).andThen fun right isRight => ?_
  refine (isX.bitCast_types size).andThen fun left isLeft => ?_
  exact createInt_types _ integer isLeft isRight

theorem createAbs_types (isX : IsV128 space setting p1 x) (size : lanes * width = 128) :
    Types (createAbs (lanesType lanes width) p1) (lanesType lanes width) True := by
  unfold createAbs
  refine (isX.bitCast_types size).andThen fun v isV => ?_
  refine (createICmp_types .slt isV rfl rfl).andThen fun negative isTest => ?_
  have negated : Types (createNeg v) (lanesType lanes width) True := by
    unfold createNeg
    rw [isV]
    exact createInt_types .sub rfl rfl isV
  refine negated.andThen fun negated isNegated => ?_
  exact createSelect_types isTest isNegated isV

theorem createNonzero_types {vector : Value} {index : Nat} (isVector : vector.type = lanesType lanes width)
    {next : Value → Emit Value} {type : Ty}
    (rest : ∀ scalarBool : Value, scalarBool.type = .int 1 → Types (next scalarBool) type True) :
    Types (createExtractElement vector index >>= fun scalar =>
      createICmp .ne scalar (.null (.int width)) >>= next) type True := by
  have extracted : Types (createExtractElement vector index) (.int width) True :=
    createExtractElement_types isVector
  refine extracted.andThen fun scalar isScalar => ?_
  exact (createICmp_types .ne isScalar rfl rfl).andThen rest

theorem createAllTrueLanes_types {vector result : Value} {remaining index : Nat}
    (isVector : vector.type = lanesType lanes width) (isResult : result.type = .int 1) :
    Types (createAllTrueLanes vector (.null (.int width)) remaining index result) (.int 1) True := by
  induction remaining generalizing index result with
  | zero => exact .done isResult
  | succ remaining ih =>
      unfold createAllTrueLanes
      refine createNonzero_types isVector fun scalarBool isBool => ?_
      have both : Types (createBinary .and result scalarBool) (.int 1) True :=
        (createBinary_types .and isResult isBool).congr (iff_of_true rfl trivial)
      exact both.andThen fun result isResult => ih isResult

theorem createAllTrue_types (isX : IsV128 space setting p1 x) (size : lanes * width = 128) :
    Types (emitSimdUnaryOp (lanesType lanes width) p1 fun v => createAllTrue v (lanesType lanes width)) (.int 32) True := by
  unfold emitSimdUnaryOp createAllTrue
  refine (isX.bitCast_types size).andThen fun v isV => ?_
  have same : Types (createCast .bitCast v (lanesType lanes width)) (lanesType lanes width) True := by
    rw [createCast, if_pos isV]
    exact .done isV
  refine same.andThen fun vector isVector => createNonzero_types isVector fun scalarBool isBool => ?_
  refine (createAllTrueLanes_types isVector isBool).andThen fun result isResult => ?_
  exact (createCast_types .zext isResult (by simp)).congr (iff_of_true rfl trivial)

theorem createBitmask_types (isX : IsV128 space setting p1 x) (size : lanes * width = 128) (few : lanes < 32) :
    Types (createBitmask (lanesType lanes width) p1) (.int 32) True := by
  unfold createBitmask
  refine (isX.bitCast_types size).andThen fun operand isOperand => ?_
  refine (createICmp_types .slt isOperand rfl rfl).andThen fun mask isMask => ?_
  have bits : Types (createCast .bitCast mask (.int lanes)) (.int lanes) True := by
    refine (createCast_types .bitCast isMask (by simp [Ty.comparison])).congr (iff_of_true ?_ trivial)
    simp [CastOp.accepts, Ty.comparison, Ty.size, Ty.lanes, Ty.laneBits, Ty.scalar, Ty.bits, Ty.isInt]
  refine bits.andThen fun bits isBits => ?_
  have different : Ty.int lanes ≠ i32Type := fun same => absurd (Ty.int.inj same) (Nat.ne_of_lt few)
  exact (createCast_types .zext isBits different).congr (iff_of_true (zext_accepts rfl rfl rfl few) trivial)

end Sequences

/-! ## Every instruction -/

/-- What an instruction that is expanded computes. -/
inductive Sequence where
  | pair (operation : PairOp)
  | shift (operation : ShiftOp)
  | abs
  | test (operation : TestOp)
  | shuffle (val : List Nat)
  deriving DecidableEq, Repr

def BinaryOpcode.sequence? (opcode : BinaryOpcode) : Option (Sequence × Nat × Nat) :=
  (opcode.pairOp?.map fun shape => (.pair shape.1, shape.2)) <|> (opcode.shiftOp?.map fun shape => (.shift shape.1, shape.2))

def UnaryOpcode.sequence? (opcode : UnaryOpcode) : Option (Sequence × Nat × Nat) :=
  (opcode.absShape?.map fun shape => (.abs, shape)) <|> (opcode.testOp?.map fun shape => (.test shape.1, shape.2))

/-- The computation of an instruction, with the number of lanes and their width. -/
def Instr.sequence? : Instr → Option (Sequence × Nat × Nat)
  | .binary opcode => opcode.sequence?
  | .unary opcode => opcode.sequence?
  | .simdShuffle val => some (.shuffle val, 16, 8)
  | _ => none

/-- The operands on the stack, the last one on top. The indices of a shuffle are those of a
validated body. -/
def Sequence.operands (space : Space) (setting : Setting) (sequence : Sequence) (values : List Value)
    (numbers : List Nat) : Prop :=
  match sequence with
  | .pair _ => ∃ p1 p2 x y, values = [p1, p2] ∧ numbers = [x, y] ∧ IsV128 space setting p2 x ∧ IsV128 space setting p1 y
  | .shift _ =>
      ∃ p1 p2 x count, values = [p1, p2] ∧ numbers = [x, count] ∧ IsV128 space setting p2 x ∧
        IsInt space setting p1 (32, count)
  | .abs | .test _ => ∃ p1 x, values = [p1] ∧ numbers = [x] ∧ IsV128 space setting p1 x
  | .shuffle val =>
      (val.length = 16 ∧ ∀ index ∈ val, index < 32) ∧
        ∃ p1 p2 x y, values = [p1, p2] ∧ numbers = [x, y] ∧ IsV128 space setting p2 x ∧ IsV128 space setting p1 y

/-- The lane of two vectors, one behind the other. -/
def shuffled (x y index : Nat) : Nat := if index < 16 then laneAt 8 x index else laneAt 8 y (index - 16)

def Sequence.resultType (sequence : Sequence) (lanes width : Nat) : Ty :=
  match sequence with
  | .test _ => .int 32
  | _ => lanesType lanes width

/-- The result that WebAssembly gives. -/
def Sequence.eval (sequence : Sequence) (lanes width : Nat) (numbers : List Nat) : Datum :=
  match sequence, numbers with
  | .pair operation, [x, y] =>
      Datum.ofLanes lanes fun index => operation.eval width (laneAt width x index) (laneAt width y index)
  | .shift operation, [x, count] => Datum.ofLanes lanes fun index => operation.eval width (laneAt width x index) count
  | .abs, [x] => Datum.ofLanes lanes fun index => absolute width (laneAt width x index)
  | .test operation, [x] => [some (operation.eval lanes width x)]
  | .shuffle val, [x, y] => val.map fun index => some (shuffled x y index)
  | _, _ => []

section Instructions

variable {floats : Floats} {space : Space} {setting : Setting} {p1 p2 : Value} {rest : List Value}
  {x y lanes width : Nat}

theorem visitUnaryInst_wellTyped {opcode : UnaryOpcode} {type : Ty} (top : setting.straight.stack = p1 :: rest)
    (types : Types (unaryCode opcode p1) type True) : WellTyped (visitUnaryInst opcode) setting.straight := by
  unfold visitUnaryInst
  exact (wellTyped_popStack top).mpr (types.wellTyped.mpr trivial)

/-- A binary instruction with code for its operands. -/
theorem visitBinaryInst_gives {opcode : BinaryOpcode} {code : Emit Value} {type : Ty} {lane : Nat → Nat}
    (top : setting.straight.stack = p1 :: p2 :: rest) (emitted : binaryCode opcode p1 p2 = some <$> code)
    (quiet : Quiet code) (gives : GivesLanes floats space (setting.withStack rest) code type lane)
    (types : Types code type True) :
    WellTyped (visitBinaryInst opcode) setting.straight ∧
      Leaves floats space setting (visitBinaryInst opcode) rest type (some (Datum.ofLanes type.lanes lane)) :=
  ⟨(visitBinaryInst_wellTyped top emitted types).mpr trivial,
    visitBinaryInst_leaves top emitted quiet gives.yields.computes⟩

theorem visitUnaryInst_gives {opcode : UnaryOpcode} {type : Ty} {lane : Nat → Nat}
    (top : setting.straight.stack = p1 :: rest)
    (gives : GivesLanes floats space (setting.withStack rest) (unaryCode opcode p1) type lane)
    (types : Types (unaryCode opcode p1) type True) :
    WellTyped (visitUnaryInst opcode) setting.straight ∧
      Leaves floats space setting (visitUnaryInst opcode) rest type (some (Datum.ofLanes type.lanes lane)) :=
  ⟨visitUnaryInst_wellTyped top types, visitUnaryInst_leaves top gives.yields.computes⟩

/-- The code of an operation on pairs. -/
def PairOp.code (operation : PairOp) (lanes width : Nat) (p1 p2 : Value) : Emit Value :=
  match operation with
  | .addSatU => createAddSatU (lanesType lanes width) p1 p2
  | .subSatU => createSubSatU (lanesType lanes width) p1 p2
  | .avgrU => createAvgrU (lanesType lanes width) (lanesType lanes (2 * width)) p1 p2

theorem BinaryOpcode.pairOp?_code {opcode : BinaryOpcode} {operation : PairOp}
    (is : opcode.pairOp? = some (operation, lanes, width)) :
    lanes * width = 128 ∧ 1 < width ∧ binaryCode opcode p1 p2 = some <$> operation.code lanes width p1 p2 := by
  cases opcode <;> cases is <;> exact ⟨rfl, by decide, rfl⟩

theorem visitBinaryInst_pair {opcode : BinaryOpcode} {operation : PairOp}
    (is : opcode.pairOp? = some (operation, lanes, width)) (top : setting.straight.stack = p1 :: p2 :: rest)
    (isX : IsV128 space setting p2 x) (isY : IsV128 space setting p1 y) :
    WellTyped (visitBinaryInst opcode) setting.straight ∧
      Leaves floats space setting (visitBinaryInst opcode) rest (lanesType lanes width)
        (some (Sequence.eval (.pair operation) lanes width [x, y])) := by
  obtain ⟨size, wide, emitted⟩ := BinaryOpcode.pairOp?_code is
  have isX := isX.popped rest
  have isY := isY.popped rest
  cases operation with
  | addSatU =>
      exact visitBinaryInst_gives top emitted (createAddSatU_quiet ..) (createAddSatU_gives isX isY)
        (createAddSatU_types isX isY size)
  | subSatU =>
      exact visitBinaryInst_gives top emitted (createSubSatU_quiet ..) (createSubSatU_gives isX isY)
        (createSubSatU_types isX isY size)
  | avgrU =>
      exact visitBinaryInst_gives top emitted (createAvgrU_quiet ..) (createAvgrU_gives isX isY wide)
        (createAvgrU_types isX isY size)

theorem BinaryOpcode.shiftOp?_code {opcode : BinaryOpcode} {operation : ShiftOp}
    (is : opcode.shiftOp? = some (operation, lanes, width)) :
    lanes * width = 128 ∧ 0 < lanes ∧ width ≤ 2 ^ 32 ∧ (∃ exponent, width = 2 ^ exponent) ∧
      binaryCode opcode p1 p2 = some <$> emitSimdShiftOp (lanesType lanes width) p1 p2 operation.operator := by
  cases opcode <;> cases is <;>
    first
    | exact ⟨rfl, by decide, by decide, ⟨3, rfl⟩, rfl⟩
    | exact ⟨rfl, by decide, by decide, ⟨4, rfl⟩, rfl⟩
    | exact ⟨rfl, by decide, by decide, ⟨5, rfl⟩, rfl⟩
    | exact ⟨rfl, by decide, by decide, ⟨6, rfl⟩, rfl⟩

theorem visitBinaryInst_shift {opcode : BinaryOpcode} {operation : ShiftOp} {count : Nat}
    (is : opcode.shiftOp? = some (operation, lanes, width)) (top : setting.straight.stack = p1 :: p2 :: rest)
    (isX : IsV128 space setting p2 x) (isCount : IsInt space setting p1 (32, count)) :
    WellTyped (visitBinaryInst opcode) setting.straight ∧
      Leaves floats space setting (visitBinaryInst opcode) rest (lanesType lanes width)
        (some (Sequence.eval (.shift operation) lanes width [x, count])) := by
  obtain ⟨size, some_, fits, ⟨exponent, power⟩, emitted⟩ := BinaryOpcode.shiftOp?_code is
  have isX := isX.popped rest
  have isCount : IsInt space (setting.withStack rest) p1 (32, count) := ⟨isCount.popped rest, isCount.small⟩
  exact visitBinaryInst_gives top emitted (emitSimdShiftOp_quiet ..)
    (emitSimdShiftOp_gives operation power fits some_ isX isCount)
    (emitSimdShiftOp_types operation isX isCount.holds.type size)

theorem visitUnaryInst_abs {opcode : UnaryOpcode} (is : opcode.absShape? = some (lanes, width))
    (top : setting.straight.stack = p1 :: rest) (isX : IsV128 space setting p1 x) :
    WellTyped (visitUnaryInst opcode) setting.straight ∧
      Leaves floats space setting (visitUnaryInst opcode) rest (lanesType lanes width)
        (some (Sequence.eval .abs lanes width [x])) := by
  have code : lanes * width = 128 ∧ unaryCode opcode p1 = createAbs (lanesType lanes width) p1 := by
    cases opcode <;> cases is <;> exact ⟨rfl, rfl⟩
  obtain ⟨size, code⟩ := code
  have isX := isX.popped rest
  exact visitUnaryInst_gives top (code ▸ createAbs_gives isX) (code ▸ createAbs_types isX size)

theorem emitAllTrue_gives (isX : IsV128 space setting p1 x) (some_ : 0 < lanes) (few : lanes < 32) :
    GivesLanes floats space setting
      (emitSimdUnaryOp (lanesType lanes width) p1 fun v => createAllTrue v (lanesType lanes width)) (.int 32)
      fun _ => TestOp.eval .allTrue lanes width x := by
  unfold emitSimdUnaryOp
  refine (bitCast_gives isX _).andThen fun later isVector => ?_
  exact createAllTrue_gives isVector some_ (Nat.le_trans (Nat.le_of_lt few) (by decide))

/-- The code of a test. -/
def TestOp.code (operation : TestOp) (lanes width : Nat) (p1 : Value) : Emit Value :=
  match operation with
  | .allTrue => emitSimdUnaryOp (lanesType lanes width) p1 fun v => createAllTrue v (lanesType lanes width)
  | .bitmask => createBitmask (lanesType lanes width) p1

theorem visitUnaryInst_test {opcode : UnaryOpcode} {operation : TestOp}
    (is : opcode.testOp? = some (operation, lanes, width)) (top : setting.straight.stack = p1 :: rest)
    (isX : IsV128 space setting p1 x) :
    WellTyped (visitUnaryInst opcode) setting.straight ∧
      Leaves floats space setting (visitUnaryInst opcode) rest (.int 32)
        (some (Sequence.eval (.test operation) lanes width [x])) := by
  have code : lanes * width = 128 ∧ 0 < lanes ∧ lanes < 32 ∧ unaryCode opcode p1 = operation.code lanes width p1 := by
    cases opcode <;> cases is <;> exact ⟨rfl, by decide, by decide, rfl⟩
  obtain ⟨size, some_, few, code⟩ := code
  have isX := isX.popped rest
  cases operation with
  | allTrue =>
      have code : unaryCode opcode p1 = emitSimdUnaryOp _ p1 fun v => createAllTrue v _ := code
      exact visitUnaryInst_gives top (code ▸ emitAllTrue_gives isX some_ few) (code ▸ createAllTrue_types isX size)
  | bitmask =>
      have code : unaryCode opcode p1 = createBitmask _ p1 := code
      exact visitUnaryInst_gives top (code ▸ createBitmask_gives isX few) (code ▸ createBitmask_types isX size few)

/-- The lanes of the two vectors that the indices name. -/
theorem createShuffleVector_shuffled {left right : Value} {val : List Nat} (low : ∀ index ∈ val, index < 32)
    (isLeft : HasLanes space setting left (lanesType 16 8) (laneAt 8 x))
    (isRight : HasLanes space setting right (lanesType 16 8) (laneAt 8 y)) :
    Computes floats space setting (createShuffleVector left right (val.map some)) (lanesType val.length 8)
      (some (val.map fun index => some (shuffled x y index))) := by
  have computes : Computes floats space setting (createShuffleVector left right (val.map some)) _ _ :=
    createShuffleVector_computes isLeft.holds isRight.holds
  rw [List.length_map, List.map_map] at computes
  have chosen : val.map ((fun entry : Option Nat => entry.bind fun index =>
      (Datum.ofLanes 16 (laneAt 8 x) ++ Datum.ofLanes 16 (laneAt 8 y))[index]?.join) ∘ some) =
      val.map fun index => some (shuffled x y index) := by
    refine List.map_congr_left fun index member => ?_
    have inside := low index member
    rw [Function.comp_apply, Option.bind_some, shuffled]
    by_cases first : index < 16
    · rw [List.getElem?_append_left (by rwa [Datum.ofLanes_length]), Datum.ofLanes_getElem? first, if_pos first]
      rfl
    · rw [List.getElem?_append_right (by rw [Datum.ofLanes_length]; omega), Datum.ofLanes_length,
        Datum.ofLanes_getElem? (by omega), if_neg first]
      rfl
  exact chosen ▸ computes

/-- A visit that goes on from a value it has created. -/
theorem Yields.leaves_bind {code : Emit Value} {next : Value → Emit Unit} {type type' : Ty} {datum : Datum}
    {outcome : Option Datum} (first : Yields floats space setting code type datum) (quiet : Quiet code)
    (appends : ∀ value, Appends (next value))
    (then_ : ∀ {value setting'}, Later setting setting' → Holds space setting' value type datum →
      Leaves floats space setting' (next value) rest type' outcome) :
    Leaves floats space setting (code >>= next) rest type' outcome := by
  obtain ⟨value, setting', runs, later, holds⟩ := first
  refine (then_ later holds).congr ?_ later.bytes
  rw [runCode_bind quiet.appends appends, runs.runCode]
  rfl

theorem visitSimdShuffle_appends (val : List Nat) (b : Value) :
    Appends (Visit.popStack >>= fun below => createCast .bitCast below i8x16Type >>= fun a =>
      createShuffleVector a b (val.map some) >>= Visit.pushStack) :=
  popStack_appends.bind fun _ => (createCast_quiet ..).appends.bind fun _ =>
    (createShuffleVector_quiet ..).appends.bind pushStack_appends

theorem visitSimdShuffle_leaves {val : List Nat} (low : ∀ index ∈ val, index < 32)
    (top : setting.straight.stack = p1 :: p2 :: rest) (isX : IsV128 space setting p2 x)
    (isY : IsV128 space setting p1 y) :
    Leaves floats space setting (visitSimdShuffle val) rest (lanesType val.length 8)
      (some (val.map fun index => some (shuffled x y index))) := by
  have isX := isX.popped (p2 :: rest)
  have isY := isY.popped (p2 :: rest)
  unfold visitSimdShuffle
  refine Leaves.popStack ?_ top fun _ => (createCast_quiet ..).appends.bind fun _ => visitSimdShuffle_appends ..
  have right : GivesLanes floats space (setting.withStack (p2 :: rest)) (createCast .bitCast p1 (lanesType 16 8)) _ _ :=
    bitCast_gives isY _
  refine right.yields.leaves_bind (createCast_quiet ..) (fun _ => visitSimdShuffle_appends ..) fun later isRight => ?_
  have isX := (isX.later later).popped rest
  have isRight := isRight.stack rest
  refine Leaves.popStack ?_ later.stack fun _ => (createCast_quiet ..).appends.bind fun _ =>
    (createShuffleVector_quiet ..).appends.bind pushStack_appends
  have left : GivesLanes floats space _ (createCast .bitCast p2 (lanesType 16 8)) _ _ := bitCast_gives isX _
  refine left.yields.leaves_bind (createCast_quiet ..) (fun _ => (createShuffleVector_quiet ..).appends.bind pushStack_appends)
    fun {a last} later isLeft => ?_
  have here : last.withStack rest = last := Setting.withStack_same later.stack
  have shuffled : Computes floats space last (createShuffleVector a _ (val.map some)) _ _ :=
    createShuffleVector_shuffled low ⟨isLeft, left.small⟩ ⟨isRight.later later, right.small⟩
  rw [← here] at shuffled ⊢
  exact shuffled.leaves (createShuffleVector_quiet ..)

/-- A visit is accepted when its first part and the rest are. -/
theorem Types.wellTyped_bind {code : Emit Value} {next : Value → Emit Unit} {type : Ty} {straight : Straight Operation}
    (first : Types code type True) (appends : ∀ value, Appends (next value))
    (rest : ∀ value middle, value.type = type → middle.stack = straight.stack → WellTyped (next value) middle) :
    WellTyped (code >>= next) straight := by
  obtain ⟨value, middle, ran, accepted⟩ := first.runs straight
  obtain ⟨extends_, isType⟩ := first.emits.run ran
  obtain ⟨value', after, ran', accepted'⟩ := rest value middle isType extends_.stack
  obtain ⟨_, more, whole'⟩ := (appends value).run ran'
  obtain ⟨code, whole⟩ := extends_.code
  rw [← whole', List.drop_left] at accepted'
  rw [← whole, List.drop_left] at accepted
  refine ⟨value', after, (bind_run_ok ran).trans ran', ?_⟩
  rw [← whole', ← whole, List.append_assoc, List.drop_left]
  exact List.forall_mem_append.mpr ⟨accepted.mpr trivial, accepted'⟩

theorem visitSimdShuffle_wellTyped {val : List Nat} (top : setting.straight.stack = p1 :: p2 :: rest)
    (isX : IsV128 space setting p2 x) (isY : IsV128 space setting p1 y) :
    WellTyped (visitSimdShuffle val) setting.straight := by
  unfold visitSimdShuffle
  rw [wellTyped_popStack top]
  have right : Types (createCast .bitCast p1 (lanesType 16 8)) (lanesType 16 8) True := isY.bitCast_types rfl
  refine right.wellTyped_bind (fun _ => visitSimdShuffle_appends ..) fun b middle isRight below => ?_
  rw [wellTyped_popStack below]
  have left : Types (createCast .bitCast p2 (lanesType 16 8)) (lanesType 16 8) True := isX.bitCast_types rfl
  have code : Types (createCast .bitCast p2 i8x16Type >>= fun a => createShuffleVector a b (val.map some)) _ True :=
    left.andThen fun a isLeft => createShuffleVector_types _ isLeft isRight
  rw [← bind_assoc]
  exact code.wellTyped.mpr trivial

/-- The code of an expanded instruction is accepted and gives what WebAssembly gives. -/
theorem visitInstr_expanded (environment : Environment) {instr : Instr} {sequence : Sequence} {operands : List Value}
    {numbers : List Nat} (is : instr.sequence? = some (sequence, lanes, width))
    (top : setting.straight.stack = operands ++ rest)
    (stand : sequence.operands space setting operands numbers) :
    WellTyped (visitInstr environment instr) setting.straight ∧
      Leaves floats space setting (visitInstr environment instr) rest (sequence.resultType lanes width)
        (some (sequence.eval lanes width numbers)) := by
  cases instr with
  | binary opcode =>
      have is : opcode.sequence? = some (sequence, lanes, width) := is
      unfold BinaryOpcode.sequence? at is
      cases isPair : opcode.pairOp? with
      | some shape =>
          obtain ⟨operation, shape⟩ := shape
          rw [isPair] at is
          cases is
          obtain ⟨p1, p2, x, y, rfl, rfl, isX, isY⟩ := stand
          exact visitBinaryInst_pair isPair top isX isY
      | none =>
          cases isShift : opcode.shiftOp? with
          | some shape =>
              obtain ⟨operation, shape⟩ := shape
              rw [isPair, isShift] at is
              cases is
              obtain ⟨p1, p2, x, count, rfl, rfl, isX, isCount⟩ := stand
              exact visitBinaryInst_shift isShift top isX isCount
          | none =>
              rw [isPair, isShift] at is
              cases is
  | unary opcode =>
      have is : opcode.sequence? = some (sequence, lanes, width) := is
      unfold UnaryOpcode.sequence? at is
      cases isAbs : opcode.absShape? with
      | some shape =>
          rw [isAbs] at is
          cases is
          obtain ⟨p1, x, rfl, rfl, isX⟩ := stand
          exact visitUnaryInst_abs isAbs top isX
      | none =>
          cases isTest : opcode.testOp? with
          | some shape =>
              obtain ⟨operation, shape⟩ := shape
              rw [isAbs, isTest] at is
              cases is
              obtain ⟨p1, x, rfl, rfl, isX⟩ := stand
              exact visitUnaryInst_test isTest top isX
          | none =>
              rw [isAbs, isTest] at is
              cases is
  | simdShuffle val =>
      cases is
      obtain ⟨⟨whole, low⟩, p1, p2, x, y, rfl, rfl, isX, isY⟩ := stand
      have leaves : Leaves floats space setting (visitSimdShuffle val) rest (lanesType val.length 8) _ :=
        visitSimdShuffle_leaves low top isX isY
      rw [whole] at leaves
      exact ⟨visitSimdShuffle_wellTyped top isX isY, leaves⟩
  | _ => cases is

end Instructions

/-- `i8x16.avgr_u` of 2 and 1 in the first lane is 2. -/
theorem visitInstr_expanded_avgr :
    WellTyped (visitInstr onePage (.binary .i8x16AvgrU)) (Setting.start [.int 128 1, .int 128 2]).straight ∧
      Leaves (.choosing true) ⟨0, 65536⟩ (.start [.int 128 1, .int 128 2]) (visitInstr onePage (.binary .i8x16AvgrU)) []
        (lanesType 16 8) (some (Sequence.eval (.pair .avgrU) 16 8 [2, 1])) := by
  have is : Instr.sequence? (.binary .i8x16AvgrU) = some (.pair .avgrU, 16, 8) := rfl
  have stand : Sequence.operands ⟨0, 65536⟩ (.start [.int 128 1, .int 128 2]) (.pair .avgrU)
      [.int 128 1, .int 128 2] [2, 1] :=
    ⟨_, _, _, _, rfl, rfl, isV128_const (by decide), isV128_const (by decide)⟩
  exact visitInstr_expanded onePage is rfl stand

end WasmToLlvm.Instruction
