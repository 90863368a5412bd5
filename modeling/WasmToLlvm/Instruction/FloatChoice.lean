import WasmToLlvm.Instruction.Integer
import WasmToLlvm.Instruction.Vector
import WasmToLlvm.Llvm.FloatLaws
import WasmToLlvm.Wasm.Float

/-!
# Comparing floating-point numbers

The comparisons of scalar floating-point numbers, and minima and maxima of scalars and of
lanes.
-/

set_option autoImplicit false

namespace WasmToLlvm.Instruction

open Llvm Wasm Block Library

/-! ## The instructions -/

/-- A comparison or a choice between operands of a type. -/
inductive FloatOp where
  | compare (relation : FloatRelation) (type : Ty)
  | pair (operation : FloatPair) (type : Ty)
  deriving DecidableEq, Repr

def FloatOp.type : FloatOp → Ty
  | .compare _ type => type
  | .pair _ type => type

def CompareOpcode.floatOp? : CompareOpcode → Option FloatOp
  | .f32Eq => some (.compare .eq .float)
  | .f64Eq => some (.compare .eq .double)
  | .f32Ne => some (.compare .ne .float)
  | .f64Ne => some (.compare .ne .double)
  | .f32Lt => some (.compare .lt .float)
  | .f64Lt => some (.compare .lt .double)
  | .f32Gt => some (.compare .gt .float)
  | .f64Gt => some (.compare .gt .double)
  | .f32Le => some (.compare .le .float)
  | .f64Le => some (.compare .le .double)
  | .f32Ge => some (.compare .ge .float)
  | .f64Ge => some (.compare .ge .double)
  | _ => none

def BinaryOpcode.floatOp? : BinaryOpcode → Option FloatOp
  | .f32Min => some (.pair .min .float)
  | .f64Min => some (.pair .min .double)
  | .f32Max => some (.pair .max .float)
  | .f64Max => some (.pair .max .double)
  | .f32x4Min => some (.pair .min f32x4Type)
  | .f64x2Min => some (.pair .min f64x2Type)
  | .f32x4Max => some (.pair .max f32x4Type)
  | .f64x2Max => some (.pair .max f64x2Type)
  | .f32x4PMin => some (.pair .pmin f32x4Type)
  | .f64x2PMin => some (.pair .pmin f64x2Type)
  | .f32x4PMax => some (.pair .pmax f32x4Type)
  | .f64x2PMax => some (.pair .pmax f64x2Type)
  | _ => none

def Instr.floatOp? : Instr → Option FloatOp
  | .compare opcode => opcode.floatOp?
  | .binary opcode => opcode.floatOp?
  | _ => none

/-! ## Operands and results -/

/-- An operand: bits in a scalar, or 128 bits in any type. -/
structure IsOperand (space : Space) (setting : Setting) (type : Ty) (value : Value) (bits : Nat) :
    Prop where
  small : bits < 2 ^ type.size
  scalar : type.isVector = false → Holds space setting value type (Datum.ofBits type bits)
  vector : type.isVector = true → IsV128 space setting value bits

/-- The visit leaves the result WebAssembly gives. A result that is NaN may be any NaN. -/
def FloatOp.agrees (floats : Floats) (space : Space) (setting : Setting) (visit : Emit Unit)
    (rest : List Value) (x y : Nat) : FloatOp → Prop
  | .compare relation type =>
      Leaves floats space setting visit rest i32Type
        (some [some (if relation.holds type.laneBits x y then 1 else 0)])
  | .pair operation type =>
      ∃ results : List Nat, Leaves floats space setting visit rest type (some (results.map some)) ∧
        List.Forall₂ (fun result expected => sameFloat type.laneBits result expected = true) results
          (List.zipWith (operation.eval type.laneBits) (unpack type.laneBits type.lanes x)
            (unpack type.laneBits type.lanes y))

/-- Where the code is right: no `ne`, and no choice between two numbers of which just one is
NaN or which are zeros of opposite signs. -/
def FloatOp.ordinary (x y : Nat) : FloatOp → Prop
  | .compare relation _ => relation ≠ .ne
  | .pair _ type => ∀ lane ∈ (unpack type.laneBits type.lanes x).zip (unpack type.laneBits type.lanes y),
      Library.ordinary type.laneBits lane.1 lane.2 = true

/-! ## Choices -/

section Choices

variable {width x y result : Nat}

theorem infinity_nan (format : width = 32 ∨ width = 64) : isNaN width (infinity width + 1) = true := by
  rcases format with rfl | rfl <;> decide

/-- The result of `llvm.minnum` on numbers that are ordinary. -/
theorem minnum_agrees (format : width = 32 ∨ width = 64) (smallX : x < 2 ^ width) (smallY : y < 2 ^ width)
    (chooses : Chooses width (· < ·) x y result) (holds : Library.ordinary width x y = true) :
    sameFloat width result (FloatPair.eval .min width x y) = true := by
  rcases ordinary_cases holds with ⟨nanX, nanY⟩ | ⟨numberX, numberY, zeros⟩
  · simp [sameFloat, FloatPair.eval, nanX, chooses.bothNaN nanX nanY, infinity_nan format]
  · have numbers : ¬(isNaN width x || isNaN width y) = true := by
      simp [numberX, numberY]
    rw [FloatPair.eval, if_neg numbers]
    rcases Int.lt_trichotomy (rank width x) (rank width y) with less | same | greater
    · rw [if_pos less, chooses.left numberX numberY less]
      exact sameFloat_refl ..
    · have positive : 0 < width := by omega
      obtain rfl := eq_of_rank positive smallX smallY same zeros
      rw [ite_self, ite_self, ite_self, (or_self_iff.mp (chooses.tie numberX numberY rfl))]
      exact sameFloat_refl ..
    · rw [if_neg (by omega), if_pos greater, chooses.right numberX numberY greater]
      exact sameFloat_refl ..

/-- The result of `llvm.maxnum` on numbers that are ordinary. -/
theorem maxnum_agrees (format : width = 32 ∨ width = 64) (smallX : x < 2 ^ width) (smallY : y < 2 ^ width)
    (chooses : Chooses width (· > ·) x y result) (holds : Library.ordinary width x y = true) :
    sameFloat width result (FloatPair.eval .max width x y) = true := by
  rcases ordinary_cases holds with ⟨nanX, nanY⟩ | ⟨numberX, numberY, zeros⟩
  · simp [sameFloat, FloatPair.eval, nanX, chooses.bothNaN nanX nanY, infinity_nan format]
  · have numbers : ¬(isNaN width x || isNaN width y) = true := by
      simp [numberX, numberY]
    rw [FloatPair.eval, if_neg numbers]
    rcases Int.lt_trichotomy (rank width x) (rank width y) with less | same | greater
    · rw [if_pos less, chooses.right numberX numberY less]
      exact sameFloat_refl ..
    · have positive : 0 < width := by omega
      obtain rfl := eq_of_rank positive smallX smallY same zeros
      rw [ite_self, ite_self, ite_self, (or_self_iff.mp (chooses.tie numberX numberY rfl))]
      exact sameFloat_refl ..
    · rw [if_neg (by omega), if_pos greater, chooses.left numberX numberY greater]
      exact sameFloat_refl ..

/-- Some choice is wrong on numbers that are not ordinary. -/
theorem chooseFloat_differs {before : Int → Int → Prop} [DecidableRel before] {expected : Nat}
    (asymmetric : ∀ a b, before a b → ¬before b a)
    (nan : isNaN width x ≠ isNaN width y → isNaN width expected = true)
    (zeros : oppositeZeros width x y = true → expected = x ∨ expected = y)
    (holds : Library.ordinary width x y = false) :
    ∃ left, sameFloat width (chooseFloat left width before x y) expected = false := by
  cases nanX : isNaN width x with
  | true =>
      cases nanY : isNaN width y with
      | true => simp [Library.ordinary, nanX, nanY] at holds
      | false =>
          refine ⟨true, ?_⟩
          have different := ne_of_isNaN nanY (nan (by simp [nanX, nanY]))
          rw [chooseFloat, if_pos nanX, sameFloat_number nanY]
          simpa using different
  | false =>
      cases nanY : isNaN width y with
      | true =>
          refine ⟨true, ?_⟩
          have different := ne_of_isNaN nanX (nan (by simp [nanX, nanY]))
          rw [chooseFloat, if_neg (by simp [nanX]), if_pos nanY, sameFloat_number nanX]
          simpa using different
      | false =>
          have opposite : oppositeZeros width x y = true := by
            simpa [Library.ordinary, nanX, nanY] using holds
          have tie : ∀ left, chooseFloat left width before x y = if left then x else y := by
            intro left
            have same := oppositeZeros_rank opposite
            have neither : ¬before (rank width x) (rank width x) := fun earlier =>
              asymmetric _ _ earlier earlier
            rw [chooseFloat, if_neg (by simp [nanX]), if_neg (by simp [nanY]), ← same, if_neg neither,
              if_neg neither]
          rcases zeros opposite with rfl | rfl
          · refine ⟨false, ?_⟩
            rw [tie, sameFloat_number (by simpa using nanY)]
            simpa using (oppositeZeros_ne opposite).symm
          · refine ⟨true, ?_⟩
            rw [tie, sameFloat_number (by simpa using nanX)]
            simpa using oppositeZeros_ne opposite

/-- A minimum or maximum is NaN where an operand is, and an operand elsewhere. -/
theorem eval_nan (format : width = 32 ∨ width = 64) {operation : FloatPair}
    (numeric : operation = .min ∨ operation = .max) (nan : isNaN width x ≠ isNaN width y) :
    isNaN width (operation.eval width x y) = true := by
  have either_ : (isNaN width x || isNaN width y) = true := by
    cases nanX : isNaN width x <;> cases nanY : isNaN width y <;> simp_all
  rcases numeric with rfl | rfl <;> rw [FloatPair.eval, if_pos either_, infinity_nan format]

theorem eval_operand {operation : FloatPair} (numeric : operation = .min ∨ operation = .max)
    (zeros : oppositeZeros width x y = true) :
    operation.eval width x y = x ∨ operation.eval width x y = y := by
  obtain ⟨numberX, numberY⟩ := oppositeZeros_notNaN zeros
  have numbers : ¬(isNaN width x || isNaN width y) = true := by
    simp [numberX, numberY]
  have same := oppositeZeros_rank zeros
  rcases numeric with rfl | rfl <;>
    rw [FloatPair.eval, if_neg numbers, if_neg (by omega), if_neg (by omega)] <;> split <;> simp

/-- An intrinsic whose result is right under all lawful choices just where the operands are
ordinary, in whichever order it takes them. -/
structure Decides (width : Nat) (intrinsic : Intrinsic) (operation : FloatPair) : Prop where
  straight : ∀ x < 2 ^ width, ∀ y < 2 ^ width, (∀ floats : Floats, floats.Lawful →
    sameFloat width (floats.pair intrinsic width x y) (operation.eval width x y) = true) ↔
      Library.ordinary width x y = true
  reversed : ∀ x < 2 ^ width, ∀ y < 2 ^ width, (∀ floats : Floats, floats.Lawful →
    sameFloat width (floats.pair intrinsic width y x) (operation.eval width x y) = true) ↔
      Library.ordinary width x y = true

theorem Decides.intro {intrinsic : Intrinsic} {operation : FloatPair} {before : Int → Int → Prop}
    [DecidableRel before] (format : width = 32 ∨ width = 64)
    (numeric : operation = .min ∨ operation = .max) (asymmetric : ∀ a b, before a b → ¬before b a)
    (lawful : ∀ floats : Floats, floats.Lawful → ∀ x y,
      Chooses width before x y (floats.pair intrinsic width x y))
    (sample : ∀ left x y, (Floats.choosing left).pair intrinsic width x y =
      chooseFloat left width before x y)
    (agrees : ∀ x < 2 ^ width, ∀ y < 2 ^ width, ∀ result, Chooses width before x y result →
      Library.ordinary width x y = true → sameFloat width result (operation.eval width x y) = true) :
    Decides width intrinsic operation where
  straight x smallX y smallY := by
    constructor
    · intro right
      by_contra holds
      obtain ⟨left, wrong⟩ := chooseFloat_differs asymmetric (eval_nan format numeric)
        (eval_operand numeric) (Bool.eq_false_iff.mpr holds)
      rw [← sample, right _ (Floats.choosing_lawful left)] at wrong
      cases wrong
    · intro holds floats isLawful
      exact agrees x smallX y smallY _ (lawful floats isLawful x y) holds
  reversed x smallX y smallY := by
    constructor
    · intro right
      by_contra holds
      rw [ordinary_comm] at holds
      obtain ⟨left, wrong⟩ := chooseFloat_differs asymmetric
        (fun nan => eval_nan format numeric nan.symm)
        (fun zeros => (eval_operand numeric (oppositeZeros_comm.trans zeros)).symm)
        (Bool.eq_false_iff.mpr holds)
      rw [← sample, right _ (Floats.choosing_lawful left)] at wrong
      cases wrong
    · intro holds floats isLawful
      exact agrees x smallX y smallY _ (lawful floats isLawful y x).swap holds

theorem minnum_decides (format : width = 32 ∨ width = 64) : Decides width .minnum .min :=
  .intro format (Or.inl rfl) (fun _ _ less => Int.not_lt.mpr (Int.le_of_lt less))
    (fun _ lawful => lawful.minnum width) (fun _ _ _ => rfl)
    fun _ smallX _ smallY _ => minnum_agrees format smallX smallY

theorem maxnum_decides (format : width = 32 ∨ width = 64) : Decides width .maxnum .max :=
  .intro format (Or.inr rfl) (fun _ _ greater => Int.not_lt.mpr (Int.le_of_lt greater))
    (fun _ lawful => lawful.maxnum width) (fun _ _ _ => rfl)
    fun _ smallX _ smallY _ => maxnum_agrees format smallX smallY

/-- The code of `pmin` gives the second operand where neither is less. -/
theorem pmin_agrees_iff (positive : 0 < width) (smallX : x < 2 ^ width) (smallY : y < 2 ^ width) :
    sameFloat width (if floatLess width x y then x else y) (FloatPair.eval .pmin width x y) =
      Library.ordinary width x y := by
  cases less : floatLess width x y with
  | true =>
      obtain ⟨holds, notGreater⟩ := floatLess_ordinary less
      simp [FloatPair.eval, notGreater, sameFloat_refl, holds]
  | false =>
      cases greater : floatLess width y x with
      | true => simp [FloatPair.eval, greater, sameFloat_refl,
          ordinary_comm.trans (floatLess_ordinary greater).1]
      | false => simp [FloatPair.eval, greater, sameFloat_iff_ordinary positive smallX smallY less greater]

theorem pmax_agrees_iff (positive : 0 < width) (smallX : x < 2 ^ width) (smallY : y < 2 ^ width) :
    sameFloat width (if floatLess width y x then x else y) (FloatPair.eval .pmax width x y) =
      Library.ordinary width x y := by
  cases less : floatLess width x y with
  | true =>
      obtain ⟨holds, notGreater⟩ := floatLess_ordinary less
      simp [FloatPair.eval, less, notGreater, sameFloat_refl, holds]
  | false =>
      cases greater : floatLess width y x with
      | true => simp [FloatPair.eval, less, sameFloat_refl,
          ordinary_comm.trans (floatLess_ordinary greater).1]
      | false => simp [FloatPair.eval, less, sameFloat_iff_ordinary positive smallX smallY less greater]

end Choices

/-! ## Running the code -/

section Code

variable {floats : Floats} {space : Space} {setting : Setting} {p1 p2 left right : Value} {x y : Nat}
  {type : Ty}

theorem lanewise_swap {combine : Nat → Nat → Nat} :
    lanewise type combine y x = lanewise type (fun x y => combine y x) x y := by
  rw [lanewise, lanewise, List.zipWith_comm]

/-- An intrinsic on two values of a type. -/
theorem createCall_pair_computes {intrinsic : Intrinsic}
    (isLeft : Holds space setting left type (Datum.ofBits type x))
    (isRight : Holds space setting right type (Datum.ofBits type y))
    (outcome : ∀ left right : Datum, intrinsic.datum floats type [left, right] =
      left.zip (Lane.lift fun x y => some (some (floats.pair intrinsic type.laneBits x y))) right) :
    Computes floats space setting (createCall intrinsic type [left, right]) type
      (some (lanewise type (floats.pair intrinsic type.laneBits) x y)) := by
  have stand : [left, right].mapM (Value.datum space setting.machine) =
      some [Datum.ofBits type x, Datum.ofBits type y] := by
    simp [isLeft.datum, isRight.datum]
  have computes : Computes floats space setting (createCall intrinsic type [left, right]) type _ :=
    createCall_computes stand
  rwa [outcome, zip_lanewise fun _ _ _ _ => Lane.lift_some] at computes

theorem createPMin_computes (lawful : floats.Lawful) (vector : type.comparison.isVector = true)
    (isX : IsV128 space setting p2 x) (isY : IsV128 space setting p1 y) :
    Computes floats space setting (createPMin type p1 p2) type
      (some (lanewise type (fun x y => if floatLess type.laneBits x y then x else y) x y)) := by
  apply emitSimdBinaryOp_computes isX isY fun _ _ => quiet_bind (by simp) (by simp)
  intro setting' left right isLeft isRight
  apply (createFCmp_lanes isRight isLeft fun x y => lawful.compare .olt _ x y).andThen
    (createFCmp_quiet ..) fun _ => createSelect_quiet ..
  intro condition setting'' later isTest
  exact createSelect_lanes vector isTest (isRight.later later) (isLeft.later later)

theorem createPMax_computes (lawful : floats.Lawful) (vector : type.comparison.isVector = true)
    (isX : IsV128 space setting p2 x) (isY : IsV128 space setting p1 y) :
    Computes floats space setting (createPMax type p1 p2) type
      (some (lanewise type (fun x y => if floatLess type.laneBits y x then x else y) x y)) := by
  rw [← lanewise_swap]
  apply emitSimdBinaryOp_computes isX isY fun _ _ => quiet_bind (by simp) (by simp)
  intro setting' left right isLeft isRight
  apply (createFCmp_lanes isLeft isRight fun x y => lawful.compare .olt _ x y).andThen
    (createFCmp_quiet ..) fun _ => createSelect_quiet ..
  intro condition setting'' later isTest
  exact createSelect_lanes_swap vector isTest (isRight.later later) (isLeft.later later)

/-! ## Every instruction -/

variable {rest : List Value} {operation : FloatPair} {opcode : BinaryOpcode}

/-- The lanes an instruction chooses, and when they are right. -/
structure ChosenBy (space : Space) (setting : Setting) (visit : Emit Unit) (rest : List Value)
    (operation : FloatPair) (type : Ty) (x y : Nat) (chosen : Floats → Nat → Nat → Nat) : Prop where
  leaves : ∀ floats : Floats, floats.Lawful →
    Leaves floats space setting visit rest type (some (lanewise type (chosen floats) x y))
  right : ∀ x < 2 ^ type.laneBits, ∀ y < 2 ^ type.laneBits, (∀ floats : Floats, floats.Lawful →
    sameFloat type.laneBits (chosen floats x y) (operation.eval type.laneBits x y) = true) ↔
      Library.ordinary type.laneBits x y = true

theorem IsOperand.popped {value : Value} {bits : Nat} (isOperand : IsOperand space setting type value bits)
    (stack : List Value) : IsOperand space (setting.withStack stack) type value bits where
  small := isOperand.small
  scalar isScalar := (isOperand.scalar isScalar).stack stack
  vector isVector := (isOperand.vector isVector).popped stack

/-- The intrinsic on scalars takes the operands in order. -/
theorem scalar_chosenBy {intrinsic : Intrinsic} (stack : setting.straight.stack = p1 :: p2 :: rest)
    (isX : IsOperand space setting type p2 x) (isY : IsOperand space setting type p1 y)
    (scalar : type.isVector = false) (decides : Decides type.laneBits intrinsic operation)
    (emitted : binaryCode opcode p1 p2 = some <$> createCall intrinsic p1.type [p2, p1])
    (outcome : ∀ floats : Floats, ∀ left right : Datum, intrinsic.datum floats type [left, right] =
      left.zip (Lane.lift fun x y => some (some (floats.pair intrinsic type.laneBits x y))) right) :
    ChosenBy space setting (visitBinaryInst opcode) rest operation type x y
      fun floats => floats.pair intrinsic type.laneBits where
  leaves floats _ := by
    have isLeft := (isX.popped rest).scalar scalar
    have isRight := (isY.popped rest).scalar scalar
    rw [isRight.type] at emitted
    exact visitBinaryInst_leaves stack emitted (createCall_quiet ..)
      (createCall_pair_computes isLeft isRight (outcome floats))
  right := decides.straight

/-- The intrinsic on vectors takes the operands in the other order. -/
theorem vector_chosenBy {intrinsic : Intrinsic} (stack : setting.straight.stack = p1 :: p2 :: rest)
    (isX : IsOperand space setting type p2 x) (isY : IsOperand space setting type p1 y)
    (vector : type.isVector = true) (decides : Decides type.laneBits intrinsic operation)
    (emitted : binaryCode opcode p1 p2 = some <$> emitSimdBinaryOp type p1 p2 fun left right =>
      createCall intrinsic type [left, right])
    (outcome : ∀ floats : Floats, ∀ left right : Datum, intrinsic.datum floats type [left, right] =
      left.zip (Lane.lift fun x y => some (some (floats.pair intrinsic type.laneBits x y))) right) :
    ChosenBy space setting (visitBinaryInst opcode) rest operation type x y
      fun floats x y => floats.pair intrinsic type.laneBits y x where
  leaves floats _ := by
    have isRight := (isX.popped rest).vector vector
    have isLeft := (isY.popped rest).vector vector
    rw [← lanewise_swap]
    exact visitBinaryInst_leaves stack emitted (emitSimdBinaryOp_quiet _ _ _ fun _ _ => createCall_quiet ..)
      (emitSimdBinaryOp_computes isRight isLeft (fun _ _ => createCall_quiet ..) fun isLeft isRight =>
        createCall_pair_computes isLeft isRight (outcome floats))
  right := decides.reversed

theorem pmin_chosenBy (stack : setting.straight.stack = p1 :: p2 :: rest)
    (isX : IsOperand space setting type p2 x) (isY : IsOperand space setting type p1 y)
    (vector : type.isVector = true) (compared : type.comparison.isVector = true)
    (positive : 0 < type.laneBits) (emitted : binaryCode opcode p1 p2 = some <$> createPMin type p1 p2) :
    ChosenBy space setting (visitBinaryInst opcode) rest .pmin type x y
      fun _ x y => if floatLess type.laneBits x y then x else y where
  leaves floats lawful := visitBinaryInst_leaves stack emitted (createPMin_quiet ..)
    (createPMin_computes lawful compared ((isX.popped rest).vector vector) ((isY.popped rest).vector vector))
  right x smallX y smallY := by
    rw [pmin_agrees_iff positive smallX smallY]
    exact ⟨fun right => right _ (Floats.choosing_lawful true), fun holds _ _ => holds⟩

theorem pmax_chosenBy (stack : setting.straight.stack = p1 :: p2 :: rest)
    (isX : IsOperand space setting type p2 x) (isY : IsOperand space setting type p1 y)
    (vector : type.isVector = true) (compared : type.comparison.isVector = true)
    (positive : 0 < type.laneBits) (emitted : binaryCode opcode p1 p2 = some <$> createPMax type p1 p2) :
    ChosenBy space setting (visitBinaryInst opcode) rest .pmax type x y
      fun _ x y => if floatLess type.laneBits y x then x else y where
  leaves floats lawful := visitBinaryInst_leaves stack emitted (createPMax_quiet ..)
    (createPMax_computes lawful compared ((isX.popped rest).vector vector) ((isY.popped rest).vector vector))
  right x smallX y smallY := by
    rw [pmax_agrees_iff positive smallX smallY]
    exact ⟨fun right => right _ (Floats.choosing_lawful true), fun holds _ _ => holds⟩

theorem visitBinaryInst_chosenBy (is : opcode.floatOp? = some (.pair operation type))
    (stack : setting.straight.stack = p1 :: p2 :: rest) (isX : IsOperand space setting type p2 x)
    (isY : IsOperand space setting type p1 y) :
    ∃ chosen, ChosenBy space setting (visitBinaryInst opcode) rest operation type x y chosen := by
  have single : (32 = 32 ∨ 32 = 64) := Or.inl rfl
  have double : (64 = 32 ∨ 64 = 64) := Or.inr rfl
  cases opcode <;> cases is
  · exact ⟨_, scalar_chosenBy stack isX isY rfl (minnum_decides single) rfl fun _ _ _ => rfl⟩
  · exact ⟨_, scalar_chosenBy stack isX isY rfl (minnum_decides double) rfl fun _ _ _ => rfl⟩
  · exact ⟨_, scalar_chosenBy stack isX isY rfl (maxnum_decides single) rfl fun _ _ _ => rfl⟩
  · exact ⟨_, scalar_chosenBy stack isX isY rfl (maxnum_decides double) rfl fun _ _ _ => rfl⟩
  · exact ⟨_, vector_chosenBy stack isX isY rfl (minnum_decides single) rfl fun _ _ _ => rfl⟩
  · exact ⟨_, vector_chosenBy stack isX isY rfl (minnum_decides double) rfl fun _ _ _ => rfl⟩
  · exact ⟨_, vector_chosenBy stack isX isY rfl (maxnum_decides single) rfl fun _ _ _ => rfl⟩
  · exact ⟨_, vector_chosenBy stack isX isY rfl (maxnum_decides double) rfl fun _ _ _ => rfl⟩
  · exact ⟨_, pmin_chosenBy stack isX isY rfl rfl (by decide) rfl⟩
  · exact ⟨_, pmin_chosenBy stack isX isY rfl rfl (by decide) rfl⟩
  · exact ⟨_, pmax_chosenBy stack isX isY rfl rfl (by decide) rfl⟩
  · exact ⟨_, pmax_chosenBy stack isX isY rfl rfl (by decide) rfl⟩

/-- The predicate of a comparison; `ne` has that of `eq`. -/
def floatPredicate : FloatRelation → FloatPredicate
  | .eq | .ne => .oeq
  | .lt => .olt
  | .gt => .ogt
  | .le => .ole
  | .ge => .oge

theorem compareCode_float {opcode : CompareOpcode} {relation : FloatRelation}
    (is : opcode.floatOp? = some (.compare relation type)) :
    compareCode opcode p1 p2 = (·, none) <$> createFCmp (floatPredicate relation) p2 p1 := by
  cases opcode <;> cases is <;> rfl

theorem CompareOpcode.floatOp?_scalar {opcode : CompareOpcode} {operation : FloatOp}
    (is : opcode.floatOp? = some operation) : ∃ relation type, operation = .compare relation type ∧
      type.isVector = false ∧ type.comparison = .int 1 ∧ type.lanes = 1 := by
  cases opcode <;> cases is <;> exact ⟨_, _, rfl, rfl, rfl, rfl⟩

theorem BinaryOpcode.floatOp?_pair {operation : FloatOp} (is : opcode.floatOp? = some operation) :
    ∃ pair type, operation = .pair pair type := by
  cases opcode <;> cases is <;> exact ⟨_, _, rfl⟩

/-- The predicate of a comparison gives the relation, but for `ne`. -/
theorem floatPredicate_holds_iff (relation : FloatRelation) (width : Nat) :
    bit ((floatPredicate relation).holds width x y) = (if relation.holds width x y then 1 else 0) ↔
      relation ≠ .ne := by
  cases relation with
  | ne =>
      simp only [floatPredicate, FloatPredicate.holds, FloatRelation.holds]
      rcases Bool.eq_false_or_eq_true (floatEqual width x y) with equal | different
      · simp [bit, equal]
      · simp [bit, different]
  | eq | lt | gt | le | ge => exact iff_of_true rfl (by decide)

theorem visitCompareExpr_float {opcode : CompareOpcode} {relation : FloatRelation} (lawful : floats.Lawful)
    (is : opcode.floatOp? = some (.compare relation type))
    (stack : setting.straight.stack = p1 :: p2 :: rest) (isX : IsOperand space setting type p2 x)
    (isY : IsOperand space setting type p1 y) :
    Leaves floats space setting (visitCompareExpr opcode) rest i32Type
      (some [some (bit ((floatPredicate relation).holds type.laneBits x y))]) := by
  obtain ⟨_, _, same, scalar, compared, single⟩ := CompareOpcode.floatOp?_scalar is
  cases same
  have one : ∀ {bits}, bits < 2 ^ type.size → unpack type.laneBits type.lanes bits = [bits] := by
    intro bits small
    rw [single]
    rw [Ty.size, single, Nat.one_mul] at small
    exact unpack_one small
  apply visitCompareExpr_leaves stack (compareCode_float is) (createFCmp_quiet ..)
  simp only [widenComparison_none]
  have computes := createFCmp_lanes ((isX.popped rest).scalar scalar) ((isY.popped rest).scalar scalar)
    fun x y => lawful.compare (floatPredicate relation) type.laneBits x y
  rw [compared, lanewise, one isX.small, one isY.small] at computes
  refine computes.andThen (createFCmp_quiet ..) (fun _ => createCast_quiet ..) fun _ isBit => ?_
  exact createCast_computes isBit (by decide)

theorem forall₂_zipWith {related : Nat → Nat → Prop} {first second : Nat → Nat → Nat} {xs ys : List Nat} :
    List.Forall₂ related (List.zipWith first xs ys) (List.zipWith second xs ys) ↔
      ∀ lane ∈ xs.zip ys, related (first lane.1 lane.2) (second lane.1 lane.2) := by
  induction xs generalizing ys with
  | nil => simp
  | cons x xs ih =>
      cases ys with
      | nil => simp
      | cons y ys => simp [ih]

theorem map_some_inj {first second : List Nat} : first.map some = second.map some ↔ first = second :=
  List.map_inj_right fun _ _ => Option.some.inj

/-- The code of a comparison or a choice between floating-point numbers gives the result of
WebAssembly under all arithmetic that the language reference allows just where the operands
are ordinary and the comparison is not `ne`. -/
theorem visitInstr_float_iff (environment : Environment) {instr : Instr} {operation : FloatOp}
    (is : instr.floatOp? = some operation) (stack : setting.straight.stack = p1 :: p2 :: rest)
    (isX : IsOperand space setting operation.type p2 x)
    (isY : IsOperand space setting operation.type p1 y) :
    (∀ floats : Floats, floats.Lawful →
      operation.agrees floats space setting (visitInstr environment instr) rest x y) ↔
      operation.ordinary x y := by
  cases instr with
  | compare opcode =>
      obtain ⟨relation, type, rfl, _⟩ := CompareOpcode.floatOp?_scalar is
      have leaves : ∀ floats : Floats, floats.Lawful →
          Leaves floats space setting (visitInstr environment (.compare opcode)) rest i32Type _ :=
        fun floats lawful => visitCompareExpr_float lawful is stack isX isY
      rw [FloatOp.ordinary, ← floatPredicate_holds_iff relation type.laneBits]
      constructor
      · intro right
        have lawful := Floats.choosing_lawful true
        have wanted : Leaves (.choosing true) space setting (visitInstr environment (.compare opcode)) rest
            i32Type (some [some (if relation.holds type.laneBits x y then 1 else 0)]) := right _ lawful
        simpa using (leaves _ lawful).unique wanted
      · intro same floats lawful
        rw [FloatOp.agrees, ← same]
        exact leaves floats lawful
  | binary opcode =>
      obtain ⟨pair, type, rfl⟩ := BinaryOpcode.floatOp?_pair is
      obtain ⟨chosen, chosenBy⟩ := visitBinaryInst_chosenBy is stack isX isY
      have agrees : ∀ floats : Floats, floats.Lawful →
          ((FloatOp.pair pair type).agrees floats space setting
            (visitInstr environment (.binary opcode)) rest x y ↔
            ∀ lane ∈ (unpack type.laneBits type.lanes x).zip (unpack type.laneBits type.lanes y),
              sameFloat type.laneBits (chosen floats lane.1 lane.2)
                (pair.eval type.laneBits lane.1 lane.2) = true) := by
        intro floats lawful
        have leaves := chosenBy.leaves floats lawful
        rw [lanewise, ← List.map_zipWith] at leaves
        constructor
        · rintro ⟨results, right, same⟩
          rw [map_some_inj.mp (Option.some.inj (right.unique leaves))] at same
          exact forall₂_zipWith.mp same
        · intro same
          exact ⟨_, leaves, forall₂_zipWith.mpr same⟩
      constructor
      · intro right lane member
        obtain ⟨inX, inY⟩ := List.of_mem_zip member
        refine (chosenBy.right _ (unpack_lt inX) _ (unpack_lt inY)).mp fun floats lawful => ?_
        exact (agrees floats lawful).mp (right floats lawful) lane member
      · intro holds floats lawful
        refine (agrees floats lawful).mpr fun lane member => ?_
        obtain ⟨inX, inY⟩ := List.of_mem_zip member
        exact (chosenBy.right _ (unpack_lt inX) _ (unpack_lt inY)).mpr (holds lane member) floats lawful
  | _ => cases is

end Code

theorem isOperand_float {space : Space} {setting : Setting} {bits : Nat} (small : bits < 2 ^ 32) :
    IsOperand space setting .float (.float bits) bits where
  small := small
  scalar _ := by
    refine .constant rfl ?_ fun _ _ isInst => by cases isInst
    rw [Datum.ofBits, show Ty.lanes .float = 1 from rfl, show Ty.laneBits .float = 32 from rfl,
      unpack_one small]
    rfl
  vector isVector := by cases isVector

theorem visitInstr_float_iff_lt :
    (∀ floats : Floats, floats.Lawful →
      (FloatOp.compare .lt .float).agrees floats ⟨0, 65536⟩ (.start [.float 0x40000000, .float 0x3F800000])
        (visitInstr onePage (.compare .f32Lt)) [] 0x3F800000 0x40000000) ↔
      (FloatOp.compare .lt .float).ordinary 0x3F800000 0x40000000 := by
  have is : Instr.floatOp? (.compare .f32Lt) = some (.compare .lt .float) := rfl
  exact visitInstr_float_iff onePage is rfl (isOperand_float (by decide)) (isOperand_float (by decide))

/-- `f32.ne` of 1 and 2 is 1, and its code gives 0. -/
theorem visitInstr_ne_equal :
    Floats.Lawful (.choosing true) ∧
      ¬(FloatOp.compare .ne .float).agrees (.choosing true) ⟨0, 65536⟩
        (.start [.float 0x40000000, .float 0x3F800000]) (visitInstr onePage (.compare .f32Ne)) []
        0x3F800000 0x40000000 := by
  refine ⟨Floats.choosing_lawful true, fun right => ?_⟩
  have is : CompareOpcode.floatOp? .f32Ne = some (.compare .ne .float) := rfl
  have leaves : Leaves (.choosing true) ⟨0, 65536⟩ (.start [.float 0x40000000, .float 0x3F800000])
      (visitCompareExpr .f32Ne) [] i32Type
      (some [some (bit (FloatPredicate.holds .oeq 32 0x3F800000 0x40000000))]) :=
    visitCompareExpr_float (Floats.choosing_lawful true) is rfl (isOperand_float (by decide))
      (isOperand_float (by decide))
  have wanted : Leaves (.choosing true) ⟨0, 65536⟩ (.start [.float 0x40000000, .float 0x3F800000])
      (visitCompareExpr .f32Ne) [] i32Type
      (some [some (if FloatRelation.holds .ne 32 0x3F800000 0x40000000 then 1 else 0)]) := right
  exact absurd (leaves.unique wanted) (by decide)

end WasmToLlvm.Instruction
