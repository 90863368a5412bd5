import Mathlib.Data.List.Basic
import WasmToLlvm.Instruction.Running
import WasmToLlvm.Llvm.FloatLaws
import WasmToLlvm.Wasm.Numeric

/-!
# Scalar integers

The code of the instructions on scalar integers and the meaning of these instructions.
-/

set_option autoImplicit false

namespace WasmToLlvm.Instruction

open Llvm Wasm Block Library

/-! ## The instructions -/

def UnaryOpcode.intOp? : UnaryOpcode → Option IntOp
  | .i32Clz => some (.unary .clz 32)
  | .i64Clz => some (.unary .clz 64)
  | .i32Ctz => some (.unary .ctz 32)
  | .i64Ctz => some (.unary .ctz 64)
  | .i32Popcnt => some (.unary .popcnt 32)
  | .i64Popcnt => some (.unary .popcnt 64)
  | .i32Extend8S => some (.extend 8 32)
  | .i32Extend16S => some (.extend 16 32)
  | .i64Extend8S => some (.extend 8 64)
  | .i64Extend16S => some (.extend 16 64)
  | .i64Extend32S => some (.extend 32 64)
  | _ => none

def BinaryOpcode.intBinary? : BinaryOpcode → Option (IntBinary × Nat)
  | .i32Add => some (.add, 32)
  | .i64Add => some (.add, 64)
  | .i32Sub => some (.sub, 32)
  | .i64Sub => some (.sub, 64)
  | .i32Mul => some (.mul, 32)
  | .i64Mul => some (.mul, 64)
  | .i32DivS => some (.divS, 32)
  | .i64DivS => some (.divS, 64)
  | .i32DivU => some (.divU, 32)
  | .i64DivU => some (.divU, 64)
  | .i32RemS => some (.remS, 32)
  | .i64RemS => some (.remS, 64)
  | .i32RemU => some (.remU, 32)
  | .i64RemU => some (.remU, 64)
  | .i32And => some (.and, 32)
  | .i64And => some (.and, 64)
  | .i32Or => some (.or, 32)
  | .i64Or => some (.or, 64)
  | .i32Xor => some (.xor, 32)
  | .i64Xor => some (.xor, 64)
  | .i32Shl => some (.shl, 32)
  | .i64Shl => some (.shl, 64)
  | .i32ShrS => some (.shrS, 32)
  | .i64ShrS => some (.shrS, 64)
  | .i32ShrU => some (.shrU, 32)
  | .i64ShrU => some (.shrU, 64)
  | .i32Rotl => some (.rotl, 32)
  | .i64Rotl => some (.rotl, 64)
  | .i32Rotr => some (.rotr, 32)
  | .i64Rotr => some (.rotr, 64)
  | _ => none

def CompareOpcode.intRelation? : CompareOpcode → Option (IntRelation × Nat)
  | .i32Eq => some (.eq, 32)
  | .i64Eq => some (.eq, 64)
  | .i32Ne => some (.ne, 32)
  | .i64Ne => some (.ne, 64)
  | .i32LtS => some (.ltS, 32)
  | .i64LtS => some (.ltS, 64)
  | .i32LtU => some (.ltU, 32)
  | .i64LtU => some (.ltU, 64)
  | .i32GtS => some (.gtS, 32)
  | .i64GtS => some (.gtS, 64)
  | .i32GtU => some (.gtU, 32)
  | .i64GtU => some (.gtU, 64)
  | .i32LeS => some (.leS, 32)
  | .i64LeS => some (.leS, 64)
  | .i32LeU => some (.leU, 32)
  | .i64LeU => some (.leU, 64)
  | .i32GeS => some (.geS, 32)
  | .i64GeS => some (.geS, 64)
  | .i32GeU => some (.geU, 32)
  | .i64GeU => some (.geU, 64)
  | _ => none

def ConvertOpcode.intOp? : ConvertOpcode → Option IntOp
  | .i32Eqz => some (.eqz 32)
  | .i64Eqz => some (.eqz 64)
  | .i32WrapI64 => some .wrap
  | .i64ExtendI32S => some (.widen true)
  | .i64ExtendI32U => some (.widen false)
  | _ => none

/-- The operation of an instruction on scalar integers. -/
def Instr.intOp? : Instr → Option IntOp
  | .unary opcode => opcode.intOp?
  | .binary opcode => opcode.intBinary?.map fun (operation, width) => .binary operation width
  | .compare opcode => opcode.intRelation?.map fun (relation, width) => .compare relation width
  | .convert opcode => opcode.intOp?
  | _ => none

/-! ## Binary instructions -/

/-- The code of a binary instruction on integers. -/
def intCode (operation : IntBinary) (p1 p2 : Value) : Emit Value :=
  match operation with
  | .add => createBinary .add p2 p1
  | .sub => createBinary .sub p2 p1
  | .mul => createBinary .mul p2 p1
  | .divS => createBinary .sdiv p2 p1
  | .divU => createBinary .udiv p2 p1
  | .remS => createBinary .srem p2 p1
  | .remU => createBinary .urem p2 p1
  | .and => createBinary .and p2 p1
  | .or => createBinary .or p2 p1
  | .xor => createBinary .xor p2 p1
  | .shl => createBinary .shl p2 p1
  | .shrS => createBinary .ashr p2 p1
  | .shrU => createBinary .lshr p2 p1
  | .rotl => createCall .fshl p1.type [p2, p2, p1]
  | .rotr => createCall .fshr p1.type [p2, p2, p1]

section Code

variable {floats : Floats} {space : Space} {setting : Setting} {p1 p2 : Value} {width x y : Nat}

theorem binaryCode_integer {opcode : BinaryOpcode} {operation : IntBinary}
    (is : opcode.intBinary? = some (operation, width)) :
    binaryCode opcode p1 p2 = some <$> intCode operation p1 p2 := by
  cases opcode <;> cases is <;> rfl

theorem intCode_quiet (operation : IntBinary) : Quiet (intCode operation p1 p2) := by
  cases operation <;> simp [intCode]

/-- What the code of a binary instruction gives. A shift by the width or more is poison, and
the remainder of the least number by -1 is undefined. -/
def intOutcome (operation : IntBinary) (width x y : Nat) : Option Datum :=
  match operation with
  | .shl | .shrS | .shrU =>
      if y < width then (operation.eval width x y).map fun result => [some result] else some [none]
  | .remS =>
      if x = 2 ^ (width - 1) ∧ y = 2 ^ width - 1 then none
      else (operation.eval width x y).map fun result => [some result]
  | _ => (operation.eval width x y).map fun result => [some result]

/-- An operator on single lanes. -/
theorem createBinary_int_computes {operator : BinaryOperator} {outcome : Option Datum}
    (isX : Holds space setting p2 (.int width) [some x])
    (isY : Holds space setting p1 (.int width) [some y]) (integer : operator.isFloat = false)
    (result : (operator.onInt (BitVec.ofNat width x) (BitVec.ofNat width y)).map (fun lane => [lane]) =
      outcome) :
    Computes floats space setting (createBinary operator p2 p1) (.int width) outcome := by
  have lane : Datum.zip (operator.lane floats (.int width)) [some x] [some y] = outcome := by
    rw [← result, Datum.zip_single, BinaryOperator.lane, if_neg (by simp [integer]), if_neg (by simp)]
    rfl
  rw [← lane]
  exact createBinary_computes isX isY

theorem intCode_computes (positive : 0 < width) (smallX : x < 2 ^ width) (smallY : y < 2 ^ width)
    (isX : Holds space setting p2 (.int width) [some x])
    (isY : Holds space setting p1 (.int width) [some y]) (operation : IntBinary) :
    Computes floats space setting (intCode operation p1 p2) (.int width)
      (intOutcome operation width x y) := by
  have zero : BitVec.ofNat width y = 0 ↔ y = 0 := ofNat_eq_zero smallY
  have least : BitVec.ofNat width x = BitVec.intMin width ↔ x = 2 ^ (width - 1) :=
    ofNat_eq_intMin positive smallX
  have minusOne : BitVec.ofNat width y = -1 ↔ y = 2 ^ width - 1 := ofNat_eq_neg_one smallY
  cases operation with
  | add =>
      apply createBinary_int_computes isX isY rfl
      simp only [BinaryOperator.onInt, toNat_add_ofNat smallX smallY, Option.map_some, intOutcome,
        IntBinary.eval]
  | sub =>
      apply createBinary_int_computes isX isY rfl
      simp only [BinaryOperator.onInt, toNat_sub_ofNat smallX smallY, Option.map_some, intOutcome,
        IntBinary.eval]
  | mul =>
      apply createBinary_int_computes isX isY rfl
      simp only [BinaryOperator.onInt, toNat_mul_ofNat smallX smallY, Option.map_some, intOutcome,
        IntBinary.eval]
  | divS =>
      apply createBinary_int_computes isX isY rfl
      simp only [BinaryOperator.onInt, zero, least, minusOne, toNat_sdiv_ofNat smallX smallY,
        intOutcome, IntBinary.eval]
      split <;> rfl
  | divU =>
      apply createBinary_int_computes isX isY rfl
      simp only [BinaryOperator.onInt, zero, intOutcome, IntBinary.eval, BitVec.udiv_eq,
        BitVec.toNat_udiv, toNat_ofNat smallX, toNat_ofNat smallY]
      split <;> rfl
  | remS =>
      apply createBinary_int_computes isX isY rfl
      simp only [BinaryOperator.onInt, zero, least, minusOne, toNat_srem_ofNat smallX smallY,
        intOutcome, IntBinary.eval]
      by_cases overflow : x = 2 ^ (width - 1) ∧ y = 2 ^ width - 1
      · rw [if_pos (Or.inr overflow), if_pos overflow]
        rfl
      · rw [if_neg overflow]
        by_cases none_ : y = 0
        · rw [if_pos (Or.inl none_), if_pos none_]
          rfl
        · rw [if_neg (not_or.mpr ⟨none_, overflow⟩), if_neg none_]
          rfl
  | remU =>
      apply createBinary_int_computes isX isY rfl
      simp only [BinaryOperator.onInt, zero, intOutcome, IntBinary.eval, BitVec.umod_eq,
        BitVec.toNat_umod, toNat_ofNat smallX, toNat_ofNat smallY]
      split <;> rfl
  | and =>
      apply createBinary_int_computes isX isY rfl
      simp only [BinaryOperator.onInt, BitVec.toNat_and, toNat_ofNat smallX, toNat_ofNat smallY,
        Option.map_some, intOutcome, IntBinary.eval]
  | or =>
      apply createBinary_int_computes isX isY rfl
      simp only [BinaryOperator.onInt, BitVec.toNat_or, toNat_ofNat smallX, toNat_ofNat smallY,
        Option.map_some, intOutcome, IntBinary.eval]
  | xor =>
      apply createBinary_int_computes isX isY rfl
      simp only [BinaryOperator.onInt, BitVec.toNat_xor, toNat_ofNat smallX, toNat_ofNat smallY,
        Option.map_some, intOutcome, IntBinary.eval]
  | shl =>
      apply createBinary_int_computes isX isY rfl
      simp only [BinaryOperator.onInt, toNat_ofNat smallY, intOutcome, IntBinary.eval]
      split
      · rename_i inside
        simp only [BitVec.toNat_shiftLeft, toNat_ofNat smallX, Nat.shiftLeft_eq, Option.map_some,
          Nat.mod_eq_of_lt inside]
      · rfl
  | shrS =>
      apply createBinary_int_computes isX isY rfl
      simp only [BinaryOperator.onInt, toNat_ofNat smallY, intOutcome, IntBinary.eval]
      split
      · rename_i inside
        simp only [toNat_sshiftRight_ofNat smallX, Option.map_some, Nat.mod_eq_of_lt inside]
      · rfl
  | shrU =>
      apply createBinary_int_computes isX isY rfl
      simp only [BinaryOperator.onInt, toNat_ofNat smallY, intOutcome, IntBinary.eval]
      split
      · rename_i inside
        simp only [BitVec.toNat_ushiftRight, toNat_ofNat smallX, Nat.shiftRight_eq_div_pow,
          Option.map_some, Nat.mod_eq_of_lt inside]
      · rfl
  | rotl =>
      have stand : [p2, p2, p1].mapM (Value.datum space setting.machine) =
          some [[some x], [some x], [some y]] := by
        simp [isX.datum, isY.datum]
      have result := toNat_rotateLeft smallX (Nat.mod_lt y positive)
      have outcome : Intrinsic.datum floats .fshl (.int width) [[some x], [some x], [some y]] =
          some [some (funnelLeft (BitVec.ofNat width x) (BitVec.ofNat width x)
            (BitVec.ofNat width y)).toNat] := rfl
      rw [funnelLeft, toNat_ofNat smallY, result] at outcome
      have computes : Computes floats space setting (createCall .fshl (.int width) [p2, p2, p1])
          (.int width) _ := createCall_computes stand
      rw [outcome] at computes
      rwa [intCode, isY.type]
  | rotr =>
      have stand : [p2, p2, p1].mapM (Value.datum space setting.machine) =
          some [[some x], [some x], [some y]] := by
        simp [isX.datum, isY.datum]
      have result := toNat_rotateRight smallX (Nat.mod_lt y positive)
      have outcome : Intrinsic.datum floats .fshr (.int width) [[some x], [some x], [some y]] =
          some [some (funnelRight (BitVec.ofNat width x) (BitVec.ofNat width x)
            (BitVec.ofNat width y)).toNat] := rfl
      rw [funnelRight, toNat_ofNat smallY, result] at outcome
      have computes : Computes floats space setting (createCall .fshr (.int width) [p2, p2, p1])
          (.int width) _ := createCall_computes stand
      rw [outcome] at computes
      rwa [intCode, isY.type]

/-! ## Other instructions -/

/-- A comparison widened to 32 bits. -/
theorem createICmp_zext_computes {predicate : IntPredicate} {holds : Bool}
    (isX : Holds space setting p2 (.int width) [some x])
    (isY : Holds space setting p1 (.int width) [some y])
    (result : predicate.holds width x y = holds) :
    Computes floats space setting (createICmp predicate p2 p1 >>= fun ret => createCast .zext ret i32Type)
      i32Type (some [some (if holds then 1 else 0)]) := by
  have compared : Computes floats space setting (createICmp predicate p2 p1) (.int 1)
      (some [some (bit holds)]) := by
    have computes : Computes floats space setting (createICmp predicate p2 p1) (.int 1) _ :=
      createICmp_computes isX isY
    rw [Datum.zip_single, Lane.lift] at computes
    exact result ▸ computes
  refine compared.andThen (createICmp_quiet ..) (fun _ => createCast_quiet ..) fun _ isBit => ?_
  exact createCast_computes isBit (by decide)

theorem widenComparison_none (ret : Value) :
    widenComparison ret none = createCast .zext ret i32Type :=
  bind_pure _

/-- The predicate of a comparison. -/
def intPredicate : IntRelation → IntPredicate
  | .eq => .eq
  | .ne => .ne
  | .ltS => .slt
  | .ltU => .ult
  | .gtS => .sgt
  | .gtU => .ugt
  | .leS => .sle
  | .leU => .ule
  | .geS => .sge
  | .geU => .uge

theorem compareCode_integer {opcode : CompareOpcode} {relation : IntRelation}
    (is : opcode.intRelation? = some (relation, width)) :
    compareCode opcode p1 p2 = (·, none) <$> createICmp (intPredicate relation) p2 p1 := by
  cases opcode <;> cases is <;> rfl

theorem intPredicate_holds (smallX : x < 2 ^ width) (smallY : y < 2 ^ width) (relation : IntRelation) :
    (intPredicate relation).holds width x y = relation.holds width x y := by
  cases relation <;>
    simp only [intPredicate, IntPredicate.holds, IntRelation.holds, BitVec.slt_eq_decide,
      BitVec.sle_eq_decide, BitVec.ult, BitVec.ule, toInt_ofNat smallX, toInt_ofNat smallY,
      toNat_ofNat smallX, toNat_ofNat smallY, gt_iff_lt, ge_iff_le]

theorem createCall_ctlz_computes (positive : 0 < width) (small : x < 2 ^ width)
    (isX : Holds space setting p1 (.int width) [some x]) :
    Computes floats space setting (createCall .ctlz (.int width) [p1, .int 1 0]) (.int width)
      (some [some (leadingZeros width x)]) := by
  have stand : [p1, .int 1 0].mapM (Value.datum space setting.machine) = some [[some x], [some 0]] := by
    simp [isX.datum]
  have outcome : Intrinsic.datum floats .ctlz (.int width) [[some x], [some 0]] =
      some [some (BitVec.ofNat width x).clz.toNat] := rfl
  rw [← toNat_clz_ofNat positive small, ← outcome]
  exact createCall_computes stand

theorem createCall_cttz_computes (small : x < 2 ^ width)
    (isX : Holds space setting p1 (.int width) [some x]) :
    Computes floats space setting (createCall .cttz (.int width) [p1, .int 1 0]) (.int width)
      (some [some (trailingZeros width x)]) := by
  have stand : [p1, .int 1 0].mapM (Value.datum space setting.machine) = some [[some x], [some 0]] := by
    simp [isX.datum]
  have outcome : Intrinsic.datum floats .cttz (.int width) [[some x], [some 0]] =
      some [some (BitVec.ofNat width x).ctz.toNat] := rfl
  rw [← toNat_ctz_ofNat small, ← outcome]
  exact createCall_computes stand

theorem createCall_ctpop_computes (isX : Holds space setting p1 (.int width) [some x]) :
    Computes floats space setting (createCall .ctpop (.int width) [p1]) (.int width)
      (some [some (countOnes width x)]) := by
  have stand : [p1].mapM (Value.datum space setting.machine) = some [[some x]] := by
    simp [isX.datum]
  have outcome : Intrinsic.datum floats .ctpop (.int width) [[some x]] =
      some [some (BitVec.ofNat width x).cpop.toNat] := rfl
  rw [← toNat_cpop_ofNat, ← outcome]
  exact createCall_computes stand

theorem createCast_trunc_computes {low : Nat} (narrower : low < width)
    (isX : Holds space setting p1 (.int width) [some x]) :
    Computes floats space setting (createCast .trunc p1 (.int low)) (.int low)
      (some [some (x % 2 ^ low)]) := by
  exact createCast_computes isX fun same => Nat.ne_of_gt narrower (Ty.int.inj same)

theorem createCast_sext_computes {wide : Nat} (wider : width < wide) (small : x < 2 ^ width)
    (isX : Holds space setting p1 (.int width) [some x]) :
    Computes floats space setting (createCast .sext p1 (.int wide)) (.int wide)
      (some [some (Library.wrap wide (signed width x))]) := by
  have outcome : CastOp.datum floats .sext (.int width) (.int wide) [some x] =
      [some ((BitVec.ofNat width x).signExtend wide).toNat] := rfl
  rw [← toNat_signExtend_ofNat small (Nat.le_of_lt wider), ← outcome]
  exact createCast_computes isX fun same => Nat.ne_of_lt wider (Ty.int.inj same)

/-- The low bits of a number, read as a signed number. -/
theorem extend_computes {low : Nat} (narrower : low < width)
    (isX : Holds space setting p1 (.int width) [some x]) :
    Computes floats space setting
      (createCast .trunc p1 (.int low) >>= fun ret => createCast .sext ret (.int width)) (.int width)
      (some [some (Library.wrap width (signed low (x % 2 ^ low)))]) := by
  apply (createCast_trunc_computes narrower isX).andThen (createCast_quiet ..) fun _ => createCast_quiet ..
  intro ret setting' _ isRet
  exact createCast_sext_computes narrower (Nat.mod_lt x (Nat.two_pow_pos low)) isRet

theorem unaryCode_integer_computes {opcode : UnaryOpcode} {operation : IntOp} {result : Nat}
    (is : opcode.intOp? = some operation) (isX : Holds space setting p1 (.int width) [some x])
    (input : operation.inputs = [width]) (small : x < 2 ^ width)
    (meaning : operation.eval [x] = some result) :
    Computes floats space setting (unaryCode opcode p1) (.int operation.output) (some [some result]) := by
  have isType := isX.type
  cases opcode <;> cases is <;> cases input <;> cases meaning <;>
    simp only [unaryCode, isType]
  · exact createCall_ctlz_computes (by decide) small isX
  · exact createCall_ctlz_computes (by decide) small isX
  · exact createCall_cttz_computes small isX
  · exact createCall_cttz_computes small isX
  · exact createCall_ctpop_computes isX
  · exact createCall_ctpop_computes isX
  all_goals exact extend_computes (by decide) isX

/-- The conversions between integers. -/
theorem convertCode_integer_computes {opcode : ConvertOpcode} {operation : IntOp} {result : Nat}
    (is : opcode.intOp? = some operation) (isX : Holds space setting p1 (.int width) [some x])
    (input : operation.inputs = [width]) (small : x < 2 ^ width)
    (meaning : operation.eval [x] = some result) :
    ∃ code, convertCode opcode p1 = some <$> code ∧ Quiet code ∧
      Computes floats space setting code (.int operation.output) (some [some result]) := by
  have zero : Holds space setting (.null p1.type) (.int width) [some 0] :=
    .constant isX.type (by simp [isX.type, Ty.lanes]) fun _ _ isInst => by cases isInst
  have eqz : ∃ code, (createICmp .eq p1 (.null p1.type) >>= fun ret =>
      some <$> createCast .zext ret i32Type) = some <$> code ∧ Quiet code ∧
      Computes floats space setting code i32Type (some [some (if x = 0 then 1 else 0)]) := by
    refine ⟨_, (map_bind _ _ _).symm, quiet_bind (createICmp_quiet ..) fun _ => createCast_quiet .., ?_⟩
    have computes : Computes floats space setting (createICmp .eq p1 (.null p1.type) >>= fun ret =>
        createCast .zext ret i32Type) i32Type _ :=
      createICmp_zext_computes isX zero (show IntPredicate.holds .eq width x 0 = (x == 0) from rfl)
    simpa only [beq_iff_eq] using computes
  cases opcode <;> cases is <;> cases input <;> cases meaning
  · exact eqz
  · exact eqz
  · exact ⟨_, rfl, createCast_quiet .., createCast_trunc_computes (by decide) isX⟩
  · exact ⟨_, rfl, createCast_quiet .., createCast_sext_computes (by decide) small isX⟩
  · exact ⟨_, rfl, createCast_quiet .., createCast_computes isX (by decide)⟩

end Code

/-! ## Every instruction -/

/-- A value on the stack that stands for a number of the width. -/
structure IsInt (space : Space) (setting : Setting) (value : Value) (input : Nat × Nat) : Prop where
  holds : Holds space setting value (.int input.1) [some input.2]
  small : input.2 < 2 ^ input.1

/-- Counts of shifts are below the width, and no remainder is taken of the least number by
-1. -/
def operandsFit : IntOp → List Nat → Prop
  | .binary .shl width, [_, y] | .binary .shrS width, [_, y] | .binary .shrU width, [_, y] => y < width
  | .binary .remS width, [x, y] => ¬(x = 2 ^ (width - 1) ∧ y = 2 ^ width - 1)
  | _, _ => True

section Instructions

variable {floats : Floats} {space : Space} {setting : Setting} {values rest : List Value}
  {operands : List Nat} {result width : Nat}

theorem intOutcome_iff {operation : IntBinary} {x y : Nat}
    (meaning : operation.eval width x y = some result) :
    intOutcome operation width x y = some [some result] ↔ operandsFit (.binary operation width) [x, y] := by
  cases operation <;>
    simp only [intOutcome, meaning, operandsFit, Option.map_some, ite_eq_left_iff, ite_eq_right_iff]
  all_goals simp

theorem UnaryOpcode.intOp?_unary {opcode : UnaryOpcode} {operation : IntOp}
    (is : opcode.intOp? = some operation) :
    ∃ width, operation.inputs = [width] ∧ ∀ operands, operandsFit operation operands := by
  cases opcode <;> cases is <;> exact ⟨_, rfl, fun operands => trivial⟩

theorem ConvertOpcode.intOp?_unary {opcode : ConvertOpcode} {operation : IntOp}
    (is : opcode.intOp? = some operation) :
    ∃ width, operation.inputs = [width] ∧ ∀ operands, operandsFit operation operands := by
  cases opcode <;> cases is <;> exact ⟨_, rfl, fun operands => trivial⟩

theorem BinaryOpcode.intBinary?_positive {opcode : BinaryOpcode} {operation : IntBinary}
    (is : opcode.intBinary? = some (operation, width)) : 0 < width := by
  cases opcode <;> cases is <;> decide

theorem IsInt.one {input : Nat} {x : Nat} (stack : setting.straight.stack = values.reverse ++ rest)
    (stand : List.Forall₂ (IsInt space setting) values ([input].zip [x])) :
    ∃ p1, setting.straight.stack = p1 :: rest ∧ IsInt space setting p1 (input, x) := by
  obtain _ | ⟨isX, _ | _⟩ := stand
  exact ⟨_, stack, isX⟩

theorem IsInt.two {input input' x y : Nat} (stack : setting.straight.stack = values.reverse ++ rest)
    (stand : List.Forall₂ (IsInt space setting) values ([input, input'].zip [x, y])) :
    ∃ p1 p2, setting.straight.stack = p1 :: p2 :: rest ∧ IsInt space setting p2 (input, x) ∧
      IsInt space setting p1 (input', y) := by
  obtain _ | ⟨isX, _ | ⟨isY, _ | _⟩⟩ := stand
  exact ⟨_, _, stack, isX, isY⟩

/-- An operand is still there when the operands have been taken from the stack. -/
theorem IsInt.popped {value : Value} {input : Nat × Nat} (isInt : IsInt space setting value input)
    (stack : List Value) :
    Holds space (setting.withStack stack) value (.int input.1) [some input.2] :=
  isInt.holds.stack stack

theorem IntOp.eval_length {operation : IntOp} (meaning : operation.eval operands = some result) :
    operands.length = operation.inputs.length := by
  unfold IntOp.eval at meaning
  split at meaning <;> first | rfl | cases meaning

theorem visitUnaryInst_integer {opcode : UnaryOpcode} {operation : IntOp}
    (is : opcode.intOp? = some operation) (stack : setting.straight.stack = values.reverse ++ rest)
    (stand : List.Forall₂ (IsInt space setting) values (operation.inputs.zip operands))
    (meaning : operation.eval operands = some result) :
    Leaves floats space setting (visitUnaryInst opcode) rest (.int operation.output)
      (some [some result]) := by
  obtain ⟨width, input, _⟩ := UnaryOpcode.intOp?_unary is
  obtain ⟨x, rfl⟩ := List.length_eq_one_iff.mp ((IntOp.eval_length meaning).trans (by rw [input]; rfl))
  rw [input] at stand
  obtain ⟨p1, top, isX⟩ := IsInt.one stack stand
  exact visitUnaryInst_leaves top
    (unaryCode_integer_computes is (isX.popped rest) input isX.small meaning)

theorem visitConvertExpr_integer {opcode : ConvertOpcode} {operation : IntOp}
    (is : opcode.intOp? = some operation) (stack : setting.straight.stack = values.reverse ++ rest)
    (stand : List.Forall₂ (IsInt space setting) values (operation.inputs.zip operands))
    (meaning : operation.eval operands = some result) :
    Leaves floats space setting (visitConvertExpr opcode) rest (.int operation.output)
      (some [some result]) := by
  obtain ⟨width, input, _⟩ := ConvertOpcode.intOp?_unary is
  obtain ⟨x, rfl⟩ := List.length_eq_one_iff.mp ((IntOp.eval_length meaning).trans (by rw [input]; rfl))
  rw [input] at stand
  obtain ⟨p1, top, isX⟩ := IsInt.one stack stand
  obtain ⟨code, emitted, quiet, computes⟩ :=
    convertCode_integer_computes is (isX.popped rest) input isX.small meaning
  exact visitConvertExpr_leaves top emitted quiet computes

theorem visitCompareExpr_integer {opcode : CompareOpcode} {relation : IntRelation}
    (is : opcode.intRelation? = some (relation, width))
    (stack : setting.straight.stack = values.reverse ++ rest)
    (stand : List.Forall₂ (IsInt space setting) values ([width, width].zip operands))
    (meaning : IntOp.eval (.compare relation width) operands = some result) :
    Leaves floats space setting (visitCompareExpr opcode) rest i32Type (some [some result]) := by
  obtain ⟨x, y, rfl⟩ := List.length_eq_two.mp (IntOp.eval_length meaning)
  obtain ⟨p1, p2, top, isX, isY⟩ := IsInt.two stack stand
  cases meaning
  apply visitCompareExpr_leaves top (compareCode_integer is) (createICmp_quiet ..)
  simp only [widenComparison_none]
  exact createICmp_zext_computes (isX.popped rest) (isY.popped rest)
    (intPredicate_holds isX.small isY.small relation)

theorem visitBinaryInst_integer {opcode : BinaryOpcode} {operation : IntBinary} {x y : Nat}
    (is : opcode.intBinary? = some (operation, width))
    (stack : setting.straight.stack = values.reverse ++ rest)
    (stand : List.Forall₂ (IsInt space setting) values ([width, width].zip [x, y])) :
    Leaves floats space setting (visitBinaryInst opcode) rest (.int width)
      (intOutcome operation width x y) := by
  obtain ⟨p1, p2, top, isX, isY⟩ := IsInt.two stack stand
  apply visitBinaryInst_leaves top (binaryCode_integer is) (intCode_quiet operation)
  exact intCode_computes (BinaryOpcode.intBinary?_positive is) isX.small isY.small (isX.popped rest)
    (isY.popped rest) operation

/-- On operands for which it does not trap, the code of an instruction on scalar integers is
defined and gives its result, unless a shift count reaches the width or the least number is
divided by -1 for the remainder. -/
theorem visitInstr_integer_iff (environment : Environment) {instr : Instr} {operation : IntOp}
    (is : instr.intOp? = some operation) (stack : setting.straight.stack = values.reverse ++ rest)
    (stand : List.Forall₂ (IsInt space setting) values (operation.inputs.zip operands))
    (meaning : operation.eval operands = some result) :
    Leaves floats space setting (visitInstr environment instr) rest (.int operation.output)
      (some [some result]) ↔ operandsFit operation operands := by
  unfold Instr.intOp? at is
  cases instr with
  | unary opcode =>
      obtain ⟨_, _, fit⟩ := UnaryOpcode.intOp?_unary is
      exact iff_of_true (visitUnaryInst_integer is stack stand meaning) (fit operands)
  | convert opcode =>
      obtain ⟨_, _, fit⟩ := ConvertOpcode.intOp?_unary is
      exact iff_of_true (visitConvertExpr_integer is stack stand meaning) (fit operands)
  | compare opcode =>
      obtain ⟨⟨relation, width⟩, isRelation, rfl⟩ := Option.map_eq_some_iff.mp is
      exact iff_of_true (visitCompareExpr_integer isRelation stack stand meaning) trivial
  | binary opcode =>
      obtain ⟨⟨binary, width⟩, isBinary, rfl⟩ := Option.map_eq_some_iff.mp is
      obtain ⟨x, y, rfl⟩ := List.length_eq_two.mp (IntOp.eval_length meaning)
      have leaves : Leaves floats space setting (visitInstr environment (.binary opcode)) rest (.int width)
          (intOutcome binary width x y) := visitBinaryInst_integer isBinary stack stand
      rw [← intOutcome_iff meaning]
      constructor
      · intro right
        exact leaves.unique right
      · intro same
        exact same ▸ leaves
  | _ => cases is

end Instructions

/-- A module without imports and one page of memory. -/
def onePage : Environment := ⟨false, [], [], [65536], []⟩

theorem isInt_const {space : Space} {setting : Setting} {width x : Nat} (small : x < 2 ^ width) :
    IsInt space setting (.int width x) (width, x) where
  holds := .constant rfl (by rw [Value.datum_int, Nat.mod_eq_of_lt small]) fun _ _ isInst => by
    cases isInst
  small := small

theorem areInts_const {space : Space} {setting : Setting} {width x y : Nat} (smallX : x < 2 ^ width)
    (smallY : y < 2 ^ width) :
    List.Forall₂ (IsInt space setting) [.int width x, .int width y] ([width, width].zip [x, y]) :=
  .cons (isInt_const smallX) (.cons (isInt_const smallY) .nil)

theorem visitInstr_integer_iff_sub :
    Leaves (.choosing true) ⟨0, 65536⟩ (.start [.int 32 7, .int 32 5]) (visitInstr onePage (.binary .i32Sub))
      [] (.int 32) (some [some (2 ^ 32 - 2)]) ↔ operandsFit (.binary .sub 32) [5, 7] := by
  have is : Instr.intOp? (.binary .i32Sub) = some (.binary .sub 32) := rfl
  exact visitInstr_integer_iff onePage is rfl (areInts_const (by decide) (by decide)) rfl

/-- `i32.shl` of 1 by 32 is 1, but its code gives poison. -/
theorem visitInstr_shl_poison :
    IntOp.eval (.binary .shl 32) [1, 32] = some 1 ∧
      ¬Leaves (.choosing true) ⟨0, 65536⟩ (.start [.int 32 32, .int 32 1])
        (visitInstr onePage (.binary .i32Shl)) [] (.int 32) (some [some 1]) := by
  refine ⟨rfl, fun right => ?_⟩
  have is : BinaryOpcode.intBinary? .i32Shl = some (.shl, 32) := rfl
  have leaves : Leaves (.choosing true) ⟨0, 65536⟩ (.start [.int 32 32, .int 32 1])
      (visitBinaryInst .i32Shl) [] (.int 32) (intOutcome .shl 32 1 32) :=
    visitBinaryInst_integer is rfl (areInts_const (by decide) (by decide))
  exact absurd (leaves.unique right) (by decide)

end WasmToLlvm.Instruction
