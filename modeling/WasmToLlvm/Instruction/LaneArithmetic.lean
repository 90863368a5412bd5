import WasmToLlvm.Instruction.Integer
import WasmToLlvm.Instruction.Typing
import WasmToLlvm.Instruction.Vector

/-!
# Arithmetic on lanes

The binary instructions on vectors that are emitted through `EMIT_SIMD_BINARY_OP`.
-/

set_option autoImplicit false

namespace WasmToLlvm.Instruction

open Llvm Wasm Block Library

/-! ## The instructions -/

/-- An operation on the lanes of two vectors. -/
inductive LaneOp where
  | add | sub | mul | addSatS | subSatS | minS | minU | maxS | maxU
  | fadd | fsub | fmul | fdiv
  deriving DecidableEq, Repr

namespace LaneOp

/-- The lane of the result. -/
def eval (floats : Floats) (operation : LaneOp) (width x y : Nat) : Nat :=
  match operation with
  | .add => (x + y) % 2 ^ width
  | .sub => wrap width ((x : Int) - y)
  | .mul => x * y % 2 ^ width
  | .addSatS => wrap width (clamp width (signed width x + signed width y))
  | .subSatS => wrap width (clamp width (signed width x - signed width y))
  | .minS => if signed width x < signed width y then x else y
  | .minU => if x < y then x else y
  | .maxS => if signed width x < signed width y then y else x
  | .maxU => if x < y then y else x
  | .fadd => floats.binary .fadd width x y
  | .fsub => floats.binary .fsub width x y
  | .fmul => floats.binary .fmul width x y
  | .fdiv => floats.binary .fdiv width x y

def isFloat : LaneOp → Bool
  | .fadd | .fsub | .fmul | .fdiv => true
  | _ => false

def isSaturating : LaneOp → Bool
  | .addSatS | .subSatS => true
  | _ => false

end LaneOp

/-- The operation of an opcode with its shape. -/
def BinaryOpcode.laneOp? : BinaryOpcode → Option (LaneOp × Ty)
  | .i8x16Add => some (.add, i8x16Type)
  | .i16x8Add => some (.add, i16x8Type)
  | .i32x4Add => some (.add, i32x4Type)
  | .i64x2Add => some (.add, i64x2Type)
  | .i8x16Sub => some (.sub, i8x16Type)
  | .i16x8Sub => some (.sub, i16x8Type)
  | .i32x4Sub => some (.sub, i32x4Type)
  | .i64x2Sub => some (.sub, i64x2Type)
  | .i16x8Mul => some (.mul, i16x8Type)
  | .i32x4Mul => some (.mul, i32x4Type)
  | .i64x2Mul => some (.mul, i64x2Type)
  | .i8x16AddSatS => some (.addSatS, i8x16Type)
  | .i16x8AddSatS => some (.addSatS, i16x8Type)
  | .i8x16SubSatS => some (.subSatS, i8x16Type)
  | .i16x8SubSatS => some (.subSatS, i16x8Type)
  | .i8x16MinS => some (.minS, i8x16Type)
  | .i16x8MinS => some (.minS, i16x8Type)
  | .i32x4MinS => some (.minS, i32x4Type)
  | .i8x16MinU => some (.minU, i8x16Type)
  | .i16x8MinU => some (.minU, i16x8Type)
  | .i32x4MinU => some (.minU, i32x4Type)
  | .i8x16MaxS => some (.maxS, i8x16Type)
  | .i16x8MaxS => some (.maxS, i16x8Type)
  | .i32x4MaxS => some (.maxS, i32x4Type)
  | .i8x16MaxU => some (.maxU, i8x16Type)
  | .i16x8MaxU => some (.maxU, i16x8Type)
  | .i32x4MaxU => some (.maxU, i32x4Type)
  | .f32x4Add => some (.fadd, f32x4Type)
  | .f64x2Add => some (.fadd, f64x2Type)
  | .f32x4Sub => some (.fsub, f32x4Type)
  | .f64x2Sub => some (.fsub, f64x2Type)
  | .f32x4Mul => some (.fmul, f32x4Type)
  | .f64x2Mul => some (.fmul, f64x2Type)
  | .f32x4Div => some (.fdiv, f32x4Type)
  | .f64x2Div => some (.fdiv, f64x2Type)
  | _ => none

/-- The code of an operation on lanes. -/
def laneCode (operation : LaneOp) (shape : Ty) (p1 p2 : Value) : Emit Value :=
  match operation with
  | .add => emitSimdBinaryOp shape p1 p2 (createBinary .add)
  | .sub => emitSimdBinaryOp shape p1 p2 (createBinary .sub)
  | .mul => emitSimdBinaryOp shape p1 p2 (createBinary .mul)
  | .addSatS => createSaturating .saddSat shape p1 p2
  | .subSatS => createSaturating .ssubSat shape p1 p2
  | .minS => createMin .slt shape p1 p2
  | .minU => createMin .ult shape p1 p2
  | .maxS => createMax .slt shape p1 p2
  | .maxU => createMax .ult shape p1 p2
  | .fadd => emitSimdBinaryOp shape p1 p2 (createBinary .fadd)
  | .fsub => emitSimdBinaryOp shape p1 p2 (createBinary .fsub)
  | .fmul => emitSimdBinaryOp shape p1 p2 (createBinary .fmul)
  | .fdiv => emitSimdBinaryOp shape p1 p2 (createBinary .fdiv)

/-- A shape of an operation. -/
structure IsShape (operation : LaneOp) (shape : Ty) (lanes : Nat) (element : Ty) : Prop where
  vector : shape = .vector lanes element
  size : lanes * element.bits = 128
  positive : 0 < element.bits
  scalar : (if operation.isFloat then element.isFloat else element.isInt) = true

section Code

variable {floats : Floats} {space : Space} {setting : Setting} {p1 p2 : Value} {x y : Nat}
  {operation : LaneOp} {shape : Ty} {opcode : BinaryOpcode}

theorem binaryCode_lanes (is : opcode.laneOp? = some (operation, shape)) :
    binaryCode opcode p1 p2 = some <$> laneCode operation shape p1 p2 := by
  cases opcode <;> cases is <;> rfl

theorem BinaryOpcode.laneOp?_shape (is : opcode.laneOp? = some (operation, shape)) :
    ∃ lanes element, IsShape operation shape lanes element := by
  cases opcode <;> cases is <;> exact ⟨_, _, rfl, rfl, by decide, rfl⟩

theorem laneCode_quiet : Quiet (laneCode operation shape p1 p2) := by
  cases operation <;> simp [laneCode, createSaturating]

/-! ## Running the code -/

variable {lanes : Nat} {element : Ty} {left right : Value}

theorem lane_int {operator : BinaryOperator} {x y : Nat} (integer : operator.isFloat = false) :
    operator.lane floats shape (some x) (some y) =
      operator.onInt (BitVec.ofNat shape.laneBits x) (BitVec.ofNat shape.laneBits y) := by
  rw [BinaryOperator.lane, if_neg (by simp [integer]), if_neg (by simp), Lane.lift]

theorem lane_float {operator : BinaryOperator} {x y : Nat} (float : operator.isFloat = true) :
    operator.lane floats shape (some x) (some y) =
      some (some (floats.binary operator shape.laneBits x y)) := by
  rw [BinaryOperator.lane, if_pos float, Lane.lift]

/-- A saturating operation; its intrinsic is declared for the shape. -/
theorem createSaturating_computes {intrinsic : Intrinsic} {number : Int → Int → Int}
    (isX : IsV128 space setting p2 x) (isY : IsV128 space setting p1 y) (isShape : p1.type = shape)
    (outcome : ∀ left right : Datum, intrinsic.datum floats shape [left, right] =
      left.zip (Lane.lift fun x y => some (some (saturate shape.laneBits
        (number (BitVec.ofNat shape.laneBits x).toInt (BitVec.ofNat shape.laneBits y).toInt)).toNat)) right) :
    Computes floats space setting (createSaturating intrinsic shape p1 p2) shape
      (some (lanewise shape (fun x y => wrap shape.laneBits (clamp shape.laneBits
        (number (signed shape.laneBits x) (signed shape.laneBits y)))) y x)) := by
  rw [createSaturating, isShape]
  apply emitSimdBinaryOp_computes isX isY fun _ _ => createCall_quiet ..
  intro setting' left right isLeft isRight
  have stand : [left, right].mapM (Value.datum space setting'.machine) =
      some [Datum.ofBits shape y, Datum.ofBits shape x] := by
    simp [isLeft.datum, isRight.datum]
  have computes : Computes floats space setting' (createCall intrinsic shape [left, right]) shape _ :=
    createCall_computes stand
  rwa [outcome, zip_lanewise] at computes
  intro x smallX y smallY
  rw [Lane.lift_some, saturate, toNat_ofInt, toInt_ofNat smallX, toInt_ofNat smallY]

theorem createMin_computes {predicate : IntPredicate} {test : Nat → Nat → Bool}
    (isX : IsV128 space setting p2 x) (isY : IsV128 space setting p1 y)
    (vector : shape.comparison.isVector = true)
    (tests : ∀ x < 2 ^ shape.laneBits, ∀ y < 2 ^ shape.laneBits,
      predicate.holds shape.laneBits x y = test x y) :
    Computes floats space setting (createMin predicate shape p1 p2) shape
      (some (lanewise shape (fun x y => if test x y then x else y) y x)) := by
  apply emitSimdBinaryOp_computes isX isY fun _ _ => quiet_bind (by simp) (by simp)
  intro setting' left right isLeft isRight
  apply (createICmp_lanes isLeft isRight tests).andThen (createICmp_quiet ..) fun _ => createSelect_quiet ..
  intro condition setting'' later isTest
  exact createSelect_lanes vector isTest (isLeft.later later) (isRight.later later)

theorem createMax_computes {predicate : IntPredicate} {test : Nat → Nat → Bool}
    (isX : IsV128 space setting p2 x) (isY : IsV128 space setting p1 y)
    (vector : shape.comparison.isVector = true)
    (tests : ∀ x < 2 ^ shape.laneBits, ∀ y < 2 ^ shape.laneBits,
      predicate.holds shape.laneBits x y = test x y) :
    Computes floats space setting (createMax predicate shape p1 p2) shape
      (some (lanewise shape (fun x y => if test x y then y else x) y x)) := by
  apply emitSimdBinaryOp_computes isX isY fun _ _ => quiet_bind (by simp) (by simp)
  intro setting' left right isLeft isRight
  apply (createICmp_lanes isLeft isRight tests).andThen (createICmp_quiet ..) fun _ => createSelect_quiet ..
  intro condition setting'' later isTest
  exact createSelect_lanes_swap vector isTest (isRight.later later) (isLeft.later later)

theorem slt_signed {width x y : Nat} (smallX : x < 2 ^ width) (smallY : y < 2 ^ width) :
    IntPredicate.holds .slt width x y = decide (signed width x < signed width y) := by
  rw [IntPredicate.holds, BitVec.slt_eq_decide, toInt_ofNat smallX, toInt_ofNat smallY]

theorem ult_toNat {width x y : Nat} (smallX : x < 2 ^ width) (smallY : y < 2 ^ width) :
    IntPredicate.holds .ult width x y = decide (x < y) := by
  rw [IntPredicate.holds, BitVec.ult, toNat_ofNat smallX, toNat_ofNat smallY]

/-- The code takes the top of the stack, the second operand, as its first one. -/
theorem laneCode_computes (isX : IsV128 space setting p2 x) (isY : IsV128 space setting p1 y)
    (isShape : IsShape operation shape lanes element)
    (declared : operation.isSaturating = true → p1.type = shape) :
    Computes floats space setting (laneCode operation shape p1 p2) shape
      (some (lanewise shape (operation.eval floats shape.laneBits) y x)) := by
  have vector : shape.comparison.isVector = true := by
    rw [isShape.vector]
    rfl
  have binary : ∀ {operator : BinaryOperator},
      (∀ x < 2 ^ shape.laneBits, ∀ y < 2 ^ shape.laneBits, operator.lane floats shape (some x) (some y) =
        some (some (operation.eval floats shape.laneBits x y))) →
      Computes floats space setting (emitSimdBinaryOp shape p1 p2 (createBinary operator)) shape
        (some (lanewise shape (operation.eval floats shape.laneBits) y x)) := fun combines =>
    emitSimdBinaryOp_computes isX isY (fun _ _ => createBinary_quiet ..) fun isLeft isRight =>
      createBinary_lanes isLeft isRight combines
  cases operation with
  | add =>
      apply binary
      intro x smallX y smallY
      rw [lane_int rfl, BinaryOperator.onInt, toNat_add_ofNat smallX smallY]
      rfl
  | sub =>
      apply binary
      intro x smallX y smallY
      rw [lane_int rfl, BinaryOperator.onInt, toNat_sub_ofNat smallX smallY]
      rfl
  | mul =>
      apply binary
      intro x smallX y smallY
      rw [lane_int rfl, BinaryOperator.onInt, toNat_mul_ofNat smallX smallY]
      rfl
  | addSatS => exact createSaturating_computes isX isY (declared rfl) fun _ _ => rfl
  | subSatS => exact createSaturating_computes isX isY (declared rfl) fun _ _ => rfl
  | minS =>
      have computes : Computes floats space setting (createMin _ shape p1 p2) shape _ :=
        createMin_computes isX isY vector fun x smallX y smallY => slt_signed smallX smallY
      simp only [decide_eq_true_eq] at computes
      exact computes
  | minU =>
      have computes : Computes floats space setting (createMin _ shape p1 p2) shape _ :=
        createMin_computes isX isY vector fun x smallX y smallY => ult_toNat smallX smallY
      simp only [decide_eq_true_eq] at computes
      exact computes
  | maxS =>
      have computes : Computes floats space setting (createMax _ shape p1 p2) shape _ :=
        createMax_computes isX isY vector fun x smallX y smallY => slt_signed smallX smallY
      simp only [decide_eq_true_eq] at computes
      exact computes
  | maxU =>
      have computes : Computes floats space setting (createMax _ shape p1 p2) shape _ :=
        createMax_computes isX isY vector fun x smallX y smallY => ult_toNat smallX smallY
      simp only [decide_eq_true_eq] at computes
      exact computes
  | fadd => exact binary fun x _ y _ => lane_float rfl
  | fsub => exact binary fun x _ y _ => lane_float rfl
  | fmul => exact binary fun x _ y _ => lane_float rfl
  | fdiv => exact binary fun x _ y _ => lane_float rfl

/-! ## Types -/

/-- The code of an operation on two vectors of a shape. -/
theorem simdBinary_types {type : Ty} {typed : Prop} {emitCode : Value → Value → Emit Value}
    (isX : IsV128 space setting p2 x) (isY : IsV128 space setting p1 y)
    (isShape : IsShape operation shape lanes element)
    (code : ∀ left right, left.type = shape → right.type = shape →
      Types (emitCode left right) type typed) :
    Types (emitSimdBinaryOp shape p1 p2 emitCode) type typed := by
  obtain ⟨rfl, size, _, scalar⟩ := isShape
  have scalar_ : element.isInt = true ∨ element.isFloat = true := by
    split at scalar
    · exact Or.inr scalar
    · exact Or.inl scalar
  exact emitSimdBinaryOp_types (isY.size.trans size.symm) (isX.size.trans size.symm) isY.scalar
    isX.scalar scalar_ code

theorem createMin_types {predicate : IntPredicate} (isX : IsV128 space setting p2 x)
    (isY : IsV128 space setting p1 y) (isShape : IsShape operation shape lanes element)
    (integer : element.isInt = true) : Types (createMin predicate shape p1 p2) shape True := by
  refine simdBinary_types isX isY isShape fun left right isLeft isRight => ?_
  rw [isShape.vector] at isLeft isRight ⊢
  refine ((createICmp_types predicate isLeft isRight integer).bind fun condition isCondition => ?_).congr
    (iff_of_true ⟨trivial, trivial⟩ trivial)
  exact createSelect_types isCondition isLeft isRight

theorem createMax_types {predicate : IntPredicate} (isX : IsV128 space setting p2 x)
    (isY : IsV128 space setting p1 y) (isShape : IsShape operation shape lanes element)
    (integer : element.isInt = true) : Types (createMax predicate shape p1 p2) shape True := by
  refine simdBinary_types isX isY isShape fun left right isLeft isRight => ?_
  rw [isShape.vector] at isLeft isRight ⊢
  refine ((createICmp_types predicate isLeft isRight integer).bind fun condition isCondition => ?_).congr
    (iff_of_true ⟨trivial, trivial⟩ trivial)
  exact createSelect_types isCondition isRight isLeft

/-- A saturating intrinsic is declared for the type of the top of the stack. -/
theorem createSaturating_types {intrinsic : Intrinsic} (isX : IsV128 space setting p2 x)
    (isY : IsV128 space setting p1 y) (isShape : IsShape operation shape lanes element)
    (params : ∀ type, intrinsic.params type = [type, type])
    (overloads : ∀ type, intrinsic.overloads type = type.scalar.isInt) (integer : element.isInt = true) :
    Types (createSaturating intrinsic shape p1 p2) p1.type (p1.type = shape) := by
  refine simdBinary_types isX isY isShape fun left right isLeft isRight =>
    (createCall_types params p1.type isLeft isRight).congr ?_
  constructor
  · intro accepted
    exact accepted.2.symm
  · intro declared
    rw [overloads, declared, isShape.vector]
    exact ⟨integer, rfl⟩

theorem laneCode_types (isX : IsV128 space setting p2 x) (isY : IsV128 space setting p1 y)
    (isShape : IsShape operation shape lanes element) :
    ∃ type, Types (laneCode operation shape p1 p2) type
      (operation.isSaturating = true → p1.type = shape) := by
  have binary : ∀ {operator : BinaryOperator}, operator.isFloat = operation.isFloat →
      Types (emitSimdBinaryOp shape p1 p2 (createBinary operator)) shape True := by
    intro operator kind
    refine simdBinary_types isX isY isShape fun left right isLeft isRight =>
      (createBinary_types operator isLeft isRight).congr (iff_of_true ?_ trivial)
    rw [kind, isShape.vector]
    exact isShape.scalar
  have plain : ∀ {typed : Prop}, operation.isSaturating = false →
      (True ↔ (operation.isSaturating = true → typed)) := by
    intro typed never
    rw [never]
    simp
  have saturating : ∀ {typed : Prop}, operation.isSaturating = true →
      (typed ↔ (operation.isSaturating = true → typed)) := by
    intro typed always
    rw [always]
    simp
  have scalar := isShape.scalar
  cases operation with
  | add => exact ⟨_, (binary rfl).congr (plain rfl)⟩
  | sub => exact ⟨_, (binary rfl).congr (plain rfl)⟩
  | mul => exact ⟨_, (binary rfl).congr (plain rfl)⟩
  | addSatS =>
      exact ⟨_, (createSaturating_types isX isY isShape (fun _ => rfl) (fun _ => rfl) scalar).congr
        (saturating rfl)⟩
  | subSatS =>
      exact ⟨_, (createSaturating_types isX isY isShape (fun _ => rfl) (fun _ => rfl) scalar).congr
        (saturating rfl)⟩
  | minS => exact ⟨_, (createMin_types isX isY isShape scalar).congr (plain rfl)⟩
  | minU => exact ⟨_, (createMin_types isX isY isShape scalar).congr (plain rfl)⟩
  | maxS => exact ⟨_, (createMax_types isX isY isShape scalar).congr (plain rfl)⟩
  | maxU => exact ⟨_, (createMax_types isX isY isShape scalar).congr (plain rfl)⟩
  | fadd => exact ⟨_, (binary rfl).congr (plain rfl)⟩
  | fsub => exact ⟨_, (binary rfl).congr (plain rfl)⟩
  | fmul => exact ⟨_, (binary rfl).congr (plain rfl)⟩
  | fdiv => exact ⟨_, (binary rfl).congr (plain rfl)⟩

end Code

/-! ## The order of the operands -/

/-- The operation gives the same for the lanes in either order. -/
def commutes (floats : Floats) (operation : LaneOp) (width x y : Nat) : Prop :=
  match operation with
  | .sub => 2 * x % 2 ^ width = 2 * y % 2 ^ width
  | .subSatS => x = y
  | .fadd => floats.binary .fadd width x y = floats.binary .fadd width y x
  | .fsub => floats.binary .fsub width x y = floats.binary .fsub width y x
  | .fmul => floats.binary .fmul width x y = floats.binary .fmul width y x
  | .fdiv => floats.binary .fdiv width x y = floats.binary .fdiv width y x
  | .add | .mul | .addSatS | .minS | .minU | .maxS | .maxU => True

section Order

variable {floats : Floats} {width x y : Nat}

theorem eval_comm_iff (positive : 0 < width) (smallX : x < 2 ^ width) (smallY : y < 2 ^ width)
    (operation : LaneOp) :
    operation.eval floats width y x = operation.eval floats width x y ↔ commutes floats operation width x y := by
  have inj := signed_inj smallX smallY
  cases operation with
  | add => simp [LaneOp.eval, commutes, Nat.add_comm]
  | sub => exact wrap_sub_comm
  | mul => simp [LaneOp.eval, commutes, Nat.mul_comm]
  | addSatS => simp [LaneOp.eval, commutes, Int.add_comm]
  | subSatS => exact wrap_clamp_sub_comm positive smallX smallY
  | minS | minU | maxS | maxU =>
      simp only [LaneOp.eval, commutes, iff_true]
      split <;> split <;> omega
  | fadd | fsub | fmul | fdiv => exact eq_comm

/-- A result in one order of the operands is that in the other. -/
theorem lanewise_comm_iff {shape : Ty} {combine : Nat → Nat → Nat} :
    lanewise shape combine y x = lanewise shape combine x y ↔
      ∀ lane ∈ (unpack shape.laneBits shape.lanes x).zip (unpack shape.laneBits shape.lanes y),
        combine lane.2 lane.1 = combine lane.1 lane.2 := by
  have lists : ∀ xs ys : List Nat, xs.length = ys.length →
      (List.zipWith (fun x y => some (combine x y)) ys xs =
        List.zipWith (fun x y => some (combine x y)) xs ys ↔
          ∀ lane ∈ xs.zip ys, combine lane.2 lane.1 = combine lane.1 lane.2) := by
    intro xs
    induction xs with
    | nil =>
        intro ys same
        cases ys with
        | nil => simp
        | cons y ys => cases same
    | cons x xs ih =>
        intro ys same
        cases ys with
        | nil => cases same
        | cons y ys => simp [ih ys (Nat.succ.inj same)]
  exact lists _ _ (by rw [unpack_length, unpack_length])

end Order

/-! ## Every instruction -/

section Instructions

variable {floats : Floats} {space : Space} {setting : Setting} {p1 p2 : Value} {rest : List Value}
  {x y : Nat} {operation : LaneOp} {shape : Ty} {opcode : BinaryOpcode}

theorem visitBinaryInst_wellTyped {code : Emit Value} {type : Ty} {typed : Prop}
    (top : setting.straight.stack = p1 :: p2 :: rest) (emitted : binaryCode opcode p1 p2 = some <$> code)
    (types : Types code type typed) :
    WellTyped (visitBinaryInst opcode) setting.straight ↔ typed := by
  rw [visitBinaryInst, wellTyped_popStack top, wellTyped_popStack rfl, emitted, some_bind_pushResult]
  exact types.wellTyped

/-- The result has the operands in the other order. -/
theorem visitBinaryInst_lanes (is : opcode.laneOp? = some (operation, shape))
    (stack : setting.straight.stack = p1 :: p2 :: rest) (isX : IsV128 space setting p2 x)
    (isY : IsV128 space setting p1 y) (declared : operation.isSaturating = true → p1.type = shape) :
    Leaves floats space setting (visitBinaryInst opcode) rest shape
      (some (lanewise shape (operation.eval floats shape.laneBits) y x)) := by
  obtain ⟨lanes, element, isShape⟩ := BinaryOpcode.laneOp?_shape is
  exact visitBinaryInst_leaves stack (binaryCode_lanes is) laneCode_quiet
    (laneCode_computes (isX.popped rest) (isY.popped rest) isShape declared)

/-- The code of an operation on lanes is accepted and applies the operation to the operands
in order just where the operation commutes, and, for a saturating operation, where the second
operand has the type of the shape. -/
theorem visitInstr_lanes_iff (environment : Environment) (is : opcode.laneOp? = some (operation, shape))
    (stack : setting.straight.stack = p1 :: p2 :: rest) (isX : IsV128 space setting p2 x)
    (isY : IsV128 space setting p1 y) :
    (WellTyped (visitInstr environment (.binary opcode)) setting.straight ∧
      Leaves floats space setting (visitInstr environment (.binary opcode)) rest shape
        (some (lanewise shape (operation.eval floats shape.laneBits) x y))) ↔
      (∀ lane ∈ (unpack shape.laneBits shape.lanes x).zip (unpack shape.laneBits shape.lanes y),
        commutes floats operation shape.laneBits lane.1 lane.2) ∧
      (operation.isSaturating = true → p1.type = shape) := by
  obtain ⟨lanes, element, isShape⟩ := BinaryOpcode.laneOp?_shape is
  obtain ⟨type, types⟩ := laneCode_types isX isY isShape
  have typed : WellTyped (visitInstr environment (.binary opcode)) setting.straight ↔
      (operation.isSaturating = true → p1.type = shape) :=
    visitBinaryInst_wellTyped stack (binaryCode_lanes is) types
  rw [typed, and_comm]
  refine and_congr_left fun declared => ?_
  have leaves : Leaves floats space setting (visitInstr environment (.binary opcode)) rest shape
      (some (lanewise shape (operation.eval floats shape.laneBits) y x)) :=
    visitBinaryInst_lanes is stack isX isY declared
  have positive : 0 < shape.laneBits := by
    rw [isShape.vector]
    exact isShape.positive
  calc Leaves floats space setting (visitInstr environment (.binary opcode)) rest shape
          (some (lanewise shape (operation.eval floats shape.laneBits) x y))
      ↔ lanewise shape (operation.eval floats shape.laneBits) y x =
          lanewise shape (operation.eval floats shape.laneBits) x y :=
        ⟨fun right => Option.some.inj (leaves.unique right), fun same => same ▸ leaves⟩
    _ ↔ ∀ lane ∈ (unpack shape.laneBits shape.lanes x).zip (unpack shape.laneBits shape.lanes y),
          operation.eval floats shape.laneBits lane.2 lane.1 =
            operation.eval floats shape.laneBits lane.1 lane.2 := lanewise_comm_iff
    _ ↔ _ := forall_congr' fun lane => forall_congr' fun member =>
        eval_comm_iff positive (unpack_lt (List.of_mem_zip member).1)
          (unpack_lt (List.of_mem_zip member).2) operation

end Instructions

theorem visitInstr_lanes_iff_add :
    (WellTyped (visitInstr onePage (.binary .i32x4Add)) (Setting.start [.int 128 3, .int 128 5]).straight ∧
      Leaves (.choosing true) ⟨0, 65536⟩ (.start [.int 128 3, .int 128 5])
        (visitInstr onePage (.binary .i32x4Add)) [] i32x4Type
        (some (lanewise i32x4Type (LaneOp.eval (.choosing true) .add 32) 5 3))) ↔
      (∀ lane ∈ (unpack 32 4 5).zip (unpack 32 4 3), commutes (.choosing true) .add 32 lane.1 lane.2) ∧
      (LaneOp.isSaturating .add = true → (Value.int 128 3).type = i32x4Type) := by
  have is : BinaryOpcode.laneOp? .i32x4Add = some (.add, i32x4Type) := rfl
  exact visitInstr_lanes_iff onePage is rfl (isV128_const (by decide)) (isV128_const (by decide))

/-- `i32x4.sub` of 5 and 3 is 2 in the first lane, and its code gives -2. -/
theorem visitInstr_sub_reversed :
    lanewise i32x4Type (LaneOp.eval (.choosing true) .sub 32) 5 3 = [some 2, some 0, some 0, some 0] ∧
      ¬Leaves (.choosing true) ⟨0, 65536⟩ (.start [.int 128 3, .int 128 5])
        (visitInstr onePage (.binary .i32x4Sub)) [] i32x4Type
        (some [some 2, some 0, some 0, some 0]) := by
  refine ⟨by decide, fun right => ?_⟩
  have is : BinaryOpcode.laneOp? .i32x4Sub = some (.sub, i32x4Type) := rfl
  have leaves : Leaves (.choosing true) ⟨0, 65536⟩ (.start [.int 128 3, .int 128 5])
      (visitBinaryInst .i32x4Sub) [] i32x4Type
      (some (lanewise i32x4Type (LaneOp.eval (.choosing true) .sub 32) 3 5)) := by
    apply visitBinaryInst_lanes is rfl (isV128_const (by decide)) (isV128_const (by decide))
    intro saturating
    cases saturating
  exact absurd (leaves.unique right) (by decide)

end WasmToLlvm.Instruction
