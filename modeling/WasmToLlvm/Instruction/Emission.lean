import WasmToLlvm.Block.Straight
import WasmToLlvm.Instruction.Dispatch

/-!
# Code behind the code so far

Creating operations adds code behind the code that a visit has created and leaves the
symbolic stack alone. Every function that creates code is built from such steps.
-/

set_option autoImplicit false

namespace WasmToLlvm.Instruction

open Llvm Wasm Block Library

/-- More code behind the same state. -/
structure Extends (before after : Straight Operation) : Prop where
  stack : after.stack = before.stack
  locals : after.locals = before.locals
  next : after.next = before.next
  code : before.code <+: after.code

theorem Extends.refl (straight : Straight Operation) : Extends straight straight :=
  ⟨rfl, rfl, rfl, List.prefix_refl _⟩

theorem Extends.trans {first second third : Straight Operation} (left : Extends first second)
    (right : Extends second third) : Extends first third :=
  ⟨right.stack.trans left.stack, right.locals.trans left.locals, right.next.trans left.next,
    left.code.trans right.code⟩

/-- A computation that only creates code, with what is known of its value. -/
structure Emits {α : Type} (emit : Emit α) (known : α → Prop) : Prop where
  run : ∀ {before value after}, emit before = .ok (value, after) → Extends before after ∧ known value

/-- A computation that only creates code. -/
abbrev Quiet {α : Type} (emit : Emit α) : Prop := Emits emit fun _ => True

section Rules

variable {α β : Type} {emit : Emit α} {next : α → Emit β} {known : α → Prop} {known' : β → Prop}

theorem Emits.pure {value : α} (holds : known value) : Emits (pure value) known where
  run ran := by
    obtain ⟨rfl, rfl⟩ := Prod.mk.inj (Except.ok.inj ran)
    exact ⟨.refl _, holds⟩

theorem Emits.throw (error : Abort) : Emits (throw error : Emit α) known where
  run ran := by cases ran

theorem Emits.bind (first : Emits emit known) (rest : ∀ value, known value → Emits (next value) known') :
    Emits (emit >>= next) known' where
  run ran := by
    obtain ⟨middle, state, ranFirst, ranRest⟩ := bind_ok.mp ran
    obtain ⟨left, holds⟩ := first.run ranFirst
    obtain ⟨right, result⟩ := (rest middle holds).run ranRest
    exact ⟨left.trans right, result⟩

theorem Emits.map {function : α → β} (first : Emits emit known)
    (result : ∀ value, known value → known' (function value)) : Emits (function <$> emit) known' := by
  rw [map_eq_pure_bind]
  exact first.bind fun value holds => .pure (result value holds)

theorem Emits.mono {known'' : α → Prop} (first : Emits emit known)
    (weaker : ∀ value, known value → known'' value) : Emits emit known'' :=
  ⟨fun ran => (first.run ran).imp_right (weaker _)⟩

theorem Emits.quiet (emits : Emits emit known) : Quiet emit :=
  emits.mono fun _ _ => trivial

@[simp] theorem quiet_pure (value : α) : Quiet (pure value) :=
  .pure trivial

@[simp] theorem quiet_throw (error : Abort) : Quiet (throw error : Emit α) :=
  .throw error

@[simp] theorem quiet_bind (first : Quiet emit) (rest : ∀ value, Quiet (next value)) :
    Quiet (emit >>= next) :=
  Emits.bind first fun value _ => rest value

@[simp] theorem quiet_map (function : α → β) (first : Quiet emit) : Quiet (function <$> emit) :=
  Emits.map first fun _ _ => trivial

@[simp] theorem quiet_ite {condition : Prop} [Decidable condition] {emit' : Emit α}
    (first : Quiet emit) (second : Quiet emit') : Quiet (if condition then emit else emit') := by
  split
  · exact first
  · exact second

end Rules

/-! ## The functions of the builder -/

/-- A created instruction is the value, of its type. -/
theorem create_emits (plain : Plain Operation) :
    Emits (Visit.create plain) fun value => value.type = plain.type where
  run ran := by
    obtain ⟨rfl, rfl⟩ := Prod.mk.inj (Except.ok.inj ran)
    exact ⟨⟨rfl, rfl, rfl, List.prefix_append _ _⟩, rfl⟩

section Builder

variable (kind : CastOp) (vector left right value : Value) (type : Ty) (index lanes : Nat)

theorem createOp_emits (operation : Operation) (operands : List Value) :
    Emits (createOp operation type operands) fun value => value.type = type :=
  create_emits _

theorem createCast_emits : Emits (createCast kind value type) fun value => value.type = type := by
  unfold createCast
  split
  · rename_i same
    exact .pure same
  · exact createOp_emits ..

theorem createVectorSplat_emits :
    Emits (createVectorSplat lanes value) fun result => result.type = .vector lanes value.type := by
  refine (createOp_emits ..).bind fun inserted isInserted => ?_
  refine (createOp_emits ..).mono fun result isResult => ?_
  rw [isResult, isInserted, List.length_replicate]
  rfl

@[simp] theorem createOp_quiet (operation : Operation) (operands : List Value) :
    Quiet (createOp operation type operands) := (createOp_emits ..).quiet

@[simp] theorem createBinary_quiet (operator : BinaryOperator) : Quiet (createBinary operator left right) :=
  createOp_quiet ..

@[simp] theorem createNeg_quiet : Quiet (createNeg value) := createBinary_quiet ..

@[simp] theorem createNot_quiet : Quiet (createNot value) := createBinary_quiet ..

@[simp] theorem createFNeg_quiet : Quiet (createFNeg value) := createOp_quiet ..

@[simp] theorem createICmp_quiet (predicate : IntPredicate) : Quiet (createICmp predicate left right) :=
  (create_emits _).quiet

@[simp] theorem createFCmp_quiet (predicate : FloatPredicate) : Quiet (createFCmp predicate left right) :=
  createOp_quiet ..

@[simp] theorem createSelect_quiet : Quiet (createSelect value left right) := (create_emits _).quiet

@[simp] theorem createCast_quiet : Quiet (createCast kind value type) := (createCast_emits ..).quiet

@[simp] theorem createUIToFP_quiet : Quiet (createUIToFP value type) := createOp_quiet ..

@[simp] theorem createZExtOrTrunc_quiet : Quiet (createZExtOrTrunc value type) := by
  simp [createZExtOrTrunc]

@[simp] theorem createCall_quiet (intrinsic : Intrinsic) (operands : List Value) :
    Quiet (createCall intrinsic type operands) := createOp_quiet ..

@[simp] theorem createExtractElement_quiet : Quiet (createExtractElement vector index) := by
  rw [createExtractElement]
  split <;> simp

@[simp] theorem createInsertElement_quiet : Quiet (createInsertElement vector value index) :=
  createOp_quiet ..

@[simp] theorem createShuffleVector_quiet (mask : List (Option Nat)) :
    Quiet (createShuffleVector left right mask) := createOp_quiet ..

@[simp] theorem createVectorSplat_quiet : Quiet (createVectorSplat lanes value) :=
  (createVectorSplat_emits ..).quiet

@[simp] theorem createLoad_quiet : Quiet (createLoad type value) := createOp_quiet ..

@[simp] theorem createStore_quiet : Quiet (createStore value left) := createOp_quiet ..

@[simp] theorem createGEP_quiet : Quiet (createGEP type left right) := createOp_quiet ..

@[simp] theorem createMemCpy_quiet : Quiet (createMemCpy left right value) := createOp_quiet ..

@[simp] theorem createMemSet_quiet : Quiet (createMemSet left right value) := createOp_quiet ..

end Builder

/-! ## The code of an instruction -/

section Code

variable (p1 p2 : Value) (type : Ty)

@[simp] theorem convertCode_quiet (opcode : ConvertOpcode) : Quiet (convertCode opcode p1) := by
  cases opcode <;> simp [convertCode]

@[simp] theorem emitSimdBinaryOp_quiet {emitCode : Value → Value → Emit Value}
    (code : ∀ left right, Quiet (emitCode left right)) :
    Quiet (emitSimdBinaryOp type p1 p2 emitCode) := by
  simp [emitSimdBinaryOp, code]

@[simp] theorem createAllTrueLanes_quiet (vector zero : Value) (lanes index : Nat) (result : Value) :
    Quiet (createAllTrueLanes vector zero lanes index result) := by
  induction lanes generalizing index result with
  | zero => exact .pure trivial
  | succ lanes ih =>
      unfold createAllTrueLanes
      repeat' first | apply quiet_bind | intro _
      all_goals simp [ih]

@[simp] theorem createSIMDExtend_quiet (destType : Ty) (startIdx : Nat) (sign : Bool) :
    Quiet (createSIMDExtend p1 type destType startIdx sign) := by
  unfold createSIMDExtend
  repeat' first | apply quiet_bind | intro _
  all_goals simp

@[simp] theorem unaryCode_quiet (opcode : UnaryOpcode) : Quiet (unaryCode opcode p1) := by
  cases opcode <;> unfold unaryCode <;> (repeat' first | apply quiet_bind | intro _) <;>
    simp

@[simp] theorem createAddSatU_quiet : Quiet (createAddSatU type p1 p2) := by
  unfold createAddSatU
  repeat' first | apply quiet_bind | intro _
  all_goals simp

@[simp] theorem createSubSatU_quiet : Quiet (createSubSatU type p1 p2) := by
  unfold createSubSatU
  repeat' first | apply quiet_bind | intro _
  all_goals simp

@[simp] theorem emitSimdShiftOp_quiet (operator : BinaryOperator) :
    Quiet (emitSimdShiftOp type p1 p2 operator) := by
  unfold emitSimdShiftOp
  repeat' first | apply quiet_bind | intro _
  all_goals simp

@[simp] theorem createAvgrU_quiet (wideType : Ty) : Quiet (createAvgrU type wideType p1 p2) := by
  unfold createAvgrU
  repeat' first | apply quiet_bind | intro _
  all_goals simp

@[simp] theorem createQ15mulrSat_quiet : Quiet (createQ15mulrSat p1 p2) := by
  unfold createQ15mulrSat
  repeat' first | apply quiet_bind | intro _
  all_goals simp

@[simp] theorem createExtmul_quiet (destType : Ty) (startIdx : Nat) (sign : Bool) :
    Quiet (createExtmul p1 p2 type destType startIdx sign) := by
  unfold createExtmul
  repeat' first | apply quiet_bind | intro _
  all_goals simp

@[simp] theorem createMin_quiet (predicate : IntPredicate) : Quiet (createMin predicate type p1 p2) :=
  emitSimdBinaryOp_quiet _ _ _ fun _ _ => quiet_bind (by simp) (by simp)

@[simp] theorem createMax_quiet (predicate : IntPredicate) : Quiet (createMax predicate type p1 p2) :=
  emitSimdBinaryOp_quiet _ _ _ fun _ _ => quiet_bind (by simp) (by simp)

@[simp] theorem createPMin_quiet : Quiet (createPMin type p1 p2) :=
  emitSimdBinaryOp_quiet _ _ _ fun _ _ => quiet_bind (by simp) (by simp)

@[simp] theorem createPMax_quiet : Quiet (createPMax type p1 p2) :=
  emitSimdBinaryOp_quiet _ _ _ fun _ _ => quiet_bind (by simp) (by simp)

@[simp] theorem binaryCode_quiet (opcode : BinaryOpcode) : Quiet (binaryCode opcode p1 p2) := by
  cases opcode <;> simp [binaryCode, createSaturating]

@[simp] theorem compareCode_quiet (opcode : CompareOpcode) : Quiet (compareCode opcode p1 p2) := by
  cases opcode <;> simp [compareCode]

@[simp] theorem widenComparison_quiet (resultType : Option Ty) :
    Quiet (widenComparison p1 resultType) := by
  rw [widenComparison]
  cases resultType <;> simp

@[simp] theorem convertValType_quiet (valType : ValType) : Quiet (convertValType valType) := by
  rw [convertValType]
  split <;> simp

@[simp] theorem convertParams_quiet (types : List ValType) : Quiet (convertParams types) := by
  induction types with
  | nil => simp [convertParams]
  | cons valType types ih => simp [convertParams, ih]

@[simp] theorem convertReturnType_quiet (types : List ValType) : Quiet (convertReturnType types) := by
  cases types <;> simp [convertReturnType]

@[simp] theorem globalAt_quiet (environment : Environment) (index : Nat) :
    Quiet (globalAt environment index) := by
  rw [globalAt]
  split <;> simp

@[simp] theorem memAt_quiet (environment : Environment) : Quiet (memAt environment) := by
  rw [memAt]
  split <;> simp

@[simp] theorem loadExtension_quiet (opcode : LoadOpcode) : Quiet (loadExtension opcode p1) := by
  cases opcode <;> simp [loadExtension]

@[simp] theorem storeConversion_quiet (opcode : StoreOpcode) : Quiet (storeConversion opcode p1) := by
  cases opcode <;> simp [storeConversion]

@[simp] theorem createExtractLane_quiet (imm : Nat) (sign : Bool) :
    Quiet (createExtractLane p1 type imm sign) := by
  unfold createExtractLane
  repeat' first | apply quiet_bind | intro _
  all_goals simp

@[simp] theorem createReplaceNarrow_quiet (narrow : Ty) (imm : Nat) :
    Quiet (createReplaceNarrow type narrow p1 p2 imm) := by
  unfold createReplaceNarrow
  repeat' first | apply quiet_bind | intro _
  all_goals simp

@[simp] theorem createReplaceLane_quiet (imm : Nat) : Quiet (createReplaceLane type p1 p2 imm) := by
  unfold createReplaceLane
  repeat' first | apply quiet_bind | intro _
  all_goals simp

@[simp] theorem arrayElementType_quiet : Quiet (arrayElementType type) := by
  cases type <;> simp [arrayElementType]

@[simp] theorem createLoadLane_quiet (imm : Nat) : Quiet (createLoadLane p1 p2 type imm) := by
  unfold createLoadLane
  repeat' first | apply quiet_bind | intro _
  all_goals simp

@[simp] theorem createStoreLane_quiet (imm : Nat) : Quiet (createStoreLane p1 p2 type imm) := by
  unfold createStoreLane
  repeat' first | apply quiet_bind | intro _
  all_goals simp

end Code

end WasmToLlvm.Instruction
