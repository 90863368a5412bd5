import WasmToLlvm.Block.Dataflow
import WasmToLlvm.Instruction.StackEffect

/-!
# The operands of instructions

The code of an instruction uses the operands that its visit pops, constants and earlier
code of the same visit, and its results are made from these.
-/

set_option autoImplicit false

namespace WasmToLlvm.Instruction

open Llvm Wasm Block Library

section Builder

variable {values : List Value} {count : Nat} {vector left right value : Value}

theorem createOp_feeds (operation : Operation) (type : Ty) {operands : List Value}
    (known : ∀ value ∈ operands, value.Among values) :
    Feeds count count values (createOp operation type operands) :=
  feeds_create known

@[simp] theorem createBinary_feeds (operator : BinaryOperator) (knownLeft : left.Among values)
    (knownRight : right.Among values) : Feeds count count values (createBinary operator left right) :=
  createOp_feeds _ _ (by simp [knownLeft, knownRight])

@[simp] theorem createNeg_feeds (known : value.Among values) : Feeds count count values (createNeg value) :=
  createBinary_feeds _ (by simp) known

@[simp] theorem createNot_feeds (known : value.Among values) : Feeds count count values (createNot value) :=
  createBinary_feeds _ known (by simp)

@[simp] theorem createFNeg_feeds (known : value.Among values) : Feeds count count values (createFNeg value) :=
  createOp_feeds _ _ (by simp [known])

@[simp] theorem createICmp_feeds (predicate : IntPredicate) (knownLeft : left.Among values)
    (knownRight : right.Among values) : Feeds count count values (createICmp predicate left right) :=
  feeds_create (by simp [Plain.operands, knownLeft, knownRight])

@[simp] theorem createFCmp_feeds (predicate : FloatPredicate) (knownLeft : left.Among values)
    (knownRight : right.Among values) : Feeds count count values (createFCmp predicate left right) :=
  createOp_feeds _ _ (by simp [knownLeft, knownRight])

@[simp] theorem createSelect_feeds (known : value.Among values) (knownLeft : left.Among values)
    (knownRight : right.Among values) : Feeds count count values (createSelect value left right) :=
  feeds_create (by simp [Plain.operands, known, knownLeft, knownRight])

@[simp] theorem createCast_feeds (kind : CastOp) (type : Ty) (known : value.Among values) :
    Feeds count count values (createCast kind value type) := by
  unfold createCast
  split
  · exact feeds_pure (by simp [known])
  · exact createOp_feeds _ _ (by simp [known])

@[simp] theorem createUIToFP_feeds (type : Ty) (known : value.Among values) :
    Feeds count count values (createUIToFP value type) :=
  createOp_feeds _ _ (by simp [known])

@[simp] theorem createZExtOrTrunc_feeds (type : Ty) (known : value.Among values) :
    Feeds count count values (createZExtOrTrunc value type) := by
  unfold createZExtOrTrunc
  split
  · simp [known]
  · split
    · simp [known]
    · exact feeds_pure (by simp [known])

@[simp] theorem createCall_feeds (intrinsic : Intrinsic) (declared : Ty) {operands : List Value}
    (known : ∀ value ∈ operands, value.Among values) :
    Feeds count count values (createCall intrinsic declared operands) :=
  createOp_feeds _ _ known

@[simp] theorem createExtractElement_feeds (index : Nat) (known : vector.Among values) :
    Feeds count count values (createExtractElement vector index) := by
  unfold createExtractElement
  split
  · exact createOp_feeds _ _ (by simp [known])
  · exact feeds_throw _

@[simp] theorem createInsertElement_feeds (index : Nat) (known : vector.Among values)
    (knownElement : value.Among values) : Feeds count count values (createInsertElement vector value index) :=
  createOp_feeds _ _ (by simp [known, knownElement])

@[simp] theorem createShuffleVector_feeds (mask : List (Option Nat)) (knownLeft : left.Among values)
    (knownRight : right.Among values) : Feeds count count values (createShuffleVector left right mask) :=
  createOp_feeds _ _ (by simp [knownLeft, knownRight])

@[simp] theorem createVectorSplat_feeds (lanes : Nat) (known : value.Among values) :
    Feeds count count values (createVectorSplat lanes value) :=
  Feeds.bind (createInsertElement_feeds _ (by simp) known) fun _ => by simp

@[simp] theorem createLoad_feeds (type : Ty) (known : value.Among values) :
    Feeds count count values (createLoad type value) :=
  createOp_feeds _ _ (by simp [known])

@[simp] theorem createStore_feeds (known : value.Among values) (knownAddress : left.Among values) :
    Feeds count count values (createStore value left) :=
  createOp_feeds _ _ (by simp [known, knownAddress])

@[simp] theorem createGEP_feeds (source : Ty) (known : left.Among values) (knownIndex : right.Among values) :
    Feeds count count values (createGEP source left right) :=
  createOp_feeds _ _ (by simp [known, knownIndex])

@[simp] theorem createMemCpy_feeds (knownLeft : left.Among values) (knownRight : right.Among values)
    (known : value.Among values) : Feeds count count values (createMemCpy left right value) :=
  createOp_feeds _ _ (by simp [knownLeft, knownRight, known])

@[simp] theorem createMemSet_feeds (knownLeft : left.Among values) (knownRight : right.Among values)
    (known : value.Among values) : Feeds count count values (createMemSet left right value) :=
  createOp_feeds _ _ (by simp [knownLeft, knownRight, known])

end Builder

/-! ## The code of an instruction -/

section Code

variable {values : List Value} {count : Nat} {vector left right p1 p2 : Value}

@[simp] theorem emitSimdBinaryOp_feeds (type : Ty) {emitCode : Value → Value → Emit Value}
    (known1 : p1.Among values) (known2 : p2.Among values)
    (code : ∀ {left right values}, left.Among values → right.Among values →
      Feeds count count values (emitCode left right)) :
    Feeds count count values (emitSimdBinaryOp type p1 p2 emitCode) := by
  unfold emitSimdBinaryOp
  refine Feeds.then (createCast_feeds _ _ known2) fun right => ?_
  exact Feeds.then (createCast_feeds _ _ (by simp [known1])) fun left => code (by simp) (by simp)

@[simp] theorem createAllTrueLanes_feeds (zero : Value) (lanes index : Nat) {result : Value}
    (known : vector.Among values) (knownZero : zero.Among values) (knownResult : result.Among values) :
    Feeds count count values (createAllTrueLanes vector zero lanes index result) := by
  induction lanes generalizing index result values with
  | zero => exact feeds_pure (by simp [knownResult])
  | succ lanes ih =>
      unfold createAllTrueLanes
      repeat' first | apply Feeds.then | intro _
      · simp [known]
      · simp [knownZero]
      · simp [knownResult]
      · exact ih _ (by simp [known]) (by simp [knownZero]) (by simp)

@[simp] theorem createSIMDExtend_feeds (vectorType destType : Ty) (startIdx : Nat) (sign : Bool)
    (known : vector.Among values) :
    Feeds count count values (createSIMDExtend vector vectorType destType startIdx sign) := by
  unfold createSIMDExtend
  refine Feeds.then (createCast_feeds _ _ known) fun vector => ?_
  refine Feeds.then (createShuffleVector_feeds _ (by simp) (by simp)) fun halfVector => ?_
  split <;> simp

theorem unaryCode_feeds (opcode : UnaryOpcode) (known : p1.Among values) :
    Feeds count count values (unaryCode opcode p1) := by
  cases opcode <;> unfold unaryCode <;> (repeat' first | apply Feeds.then | intro _) <;>
    simp +contextual [known]

@[simp] theorem createAddSatU_feeds (type : Ty) (known1 : p1.Among values) (known2 : p2.Among values) :
    Feeds count count values (createAddSatU type p1 p2) := by
  unfold createAddSatU
  repeat' first | apply Feeds.then | intro _
  all_goals simp [known1, known2]

@[simp] theorem createSubSatU_feeds (type : Ty) (known1 : p1.Among values) (known2 : p2.Among values) :
    Feeds count count values (createSubSatU type p1 p2) := by
  unfold createSubSatU
  repeat' first | apply Feeds.then | intro _
  all_goals simp [known1, known2]

@[simp] theorem emitSimdShiftOp_feeds (type : Ty) (operator : BinaryOperator) (known1 : p1.Among values)
    (known2 : p2.Among values) : Feeds count count values (emitSimdShiftOp type p1 p2 operator) := by
  unfold emitSimdShiftOp
  repeat' first | apply Feeds.then | intro _
  all_goals simp [known1, known2]

@[simp] theorem createAvgrU_feeds (type wideType : Ty) (known1 : p1.Among values) (known2 : p2.Among values) :
    Feeds count count values (createAvgrU type wideType p1 p2) := by
  unfold createAvgrU
  repeat' first | apply Feeds.then | intro _
  all_goals simp [known1, known2, splatConstant]

@[simp] theorem createQ15mulrSat_feeds (known1 : p1.Among values) (known2 : p2.Among values) :
    Feeds count count values (createQ15mulrSat p1 p2) := by
  unfold createQ15mulrSat
  repeat' first | apply Feeds.then | intro _
  all_goals simp [known1, known2, splatConstant]

@[simp] theorem createExtmul_feeds (vectorType destType : Ty) (startIdx : Nat) (sign : Bool)
    (known1 : p1.Among values) (known2 : p2.Among values) :
    Feeds count count values (createExtmul p1 p2 vectorType destType startIdx sign) := by
  unfold createExtmul
  refine Feeds.then (createSIMDExtend_feeds _ _ _ _ known2) fun left => ?_
  refine Feeds.then (createSIMDExtend_feeds _ _ _ _ (by simp [known1])) fun right => ?_
  exact createBinary_feeds _ (by simp) (by simp)

@[simp] theorem createSaturating_feeds (intrinsic : Intrinsic) (type : Ty) (known1 : p1.Among values)
    (known2 : p2.Among values) : Feeds count count values (createSaturating intrinsic type p1 p2) :=
  emitSimdBinaryOp_feeds type known1 known2 fun givenLeft givenRight =>
    createCall_feeds _ _ (by simp [givenLeft, givenRight])

@[simp] theorem createMin_feeds (predicate : IntPredicate) (type : Ty) (known1 : p1.Among values)
    (known2 : p2.Among values) : Feeds count count values (createMin predicate type p1 p2) :=
  emitSimdBinaryOp_feeds type known1 known2 fun givenLeft givenRight =>
    Feeds.then (createICmp_feeds _ givenLeft givenRight) fun _ => by simp [givenLeft, givenRight]

@[simp] theorem createMax_feeds (predicate : IntPredicate) (type : Ty) (known1 : p1.Among values)
    (known2 : p2.Among values) : Feeds count count values (createMax predicate type p1 p2) :=
  emitSimdBinaryOp_feeds type known1 known2 fun givenLeft givenRight =>
    Feeds.then (createICmp_feeds _ givenLeft givenRight) fun _ => by simp [givenLeft, givenRight]

@[simp] theorem createPMin_feeds (type : Ty) (known1 : p1.Among values) (known2 : p2.Among values) :
    Feeds count count values (createPMin type p1 p2) :=
  emitSimdBinaryOp_feeds type known1 known2 fun givenLeft givenRight =>
    Feeds.then (createFCmp_feeds _ givenRight givenLeft) fun _ => by simp [givenLeft, givenRight]

@[simp] theorem createPMax_feeds (type : Ty) (known1 : p1.Among values) (known2 : p2.Among values) :
    Feeds count count values (createPMax type p1 p2) :=
  emitSimdBinaryOp_feeds type known1 known2 fun givenLeft givenRight =>
    Feeds.then (createFCmp_feeds _ givenLeft givenRight) fun _ => by simp [givenLeft, givenRight]

/-- A result that is there. -/
theorem some_feeds {emit : Emit Value} (feeds : Feeds count count values emit) :
    Feeds count count values (some <$> emit) :=
  feeds.map (by simp)

theorem convertCode_feeds (opcode : ConvertOpcode) (known : p1.Among values) :
    Feeds count count values (convertCode opcode p1) := by
  cases opcode
  case i32Eqz | i64Eqz =>
    exact Feeds.then (createICmp_feeds _ known (by simp)) fun _ => some_feeds (by simp)
  all_goals first | exact some_feeds (by simp [known]) | exact feeds_pure (by simp)

theorem binaryCode_feeds (opcode : BinaryOpcode) (known1 : p1.Among values) (known2 : p2.Among values) :
    Feeds count count values (binaryCode opcode p1 p2) := by
  cases opcode
  case v128Andnot =>
    exact Feeds.then (createNot_feeds known1) fun _ => some_feeds (by simp [known2])
  all_goals first | exact some_feeds (by simp +contextual [known1, known2]) | exact feeds_pure (by simp)

theorem compareCode_feeds (opcode : CompareOpcode) (known1 : p1.Among values) (known2 : p2.Among values) :
    Feeds count count values (compareCode opcode p1 p2) := by
  cases opcode <;> exact Feeds.map (by simp +contextual [known1, known2]) (by simp)

theorem widenComparison_feeds (resultType : Option Ty) (known : p1.Among values) :
    Feeds count count values (widenComparison p1 resultType) := by
  unfold widenComparison
  refine Feeds.then (createCast_feeds _ _ known) fun ret => ?_
  split
  · simp
  · exact feeds_pure (by simp)

@[simp] theorem convertValType_feeds (valType : ValType) : Feeds count count values (convertValType valType) := by
  unfold convertValType
  split
  · exact feeds_pure (by simp)
  · exact feeds_throw _

theorem convertParams_feeds (types : List ValType) : Feeds count count values (convertParams types) := by
  induction types generalizing values with
  | nil => exact feeds_pure (by simp)
  | cons valType types ih =>
      exact Feeds.then (convertValType_feeds _) fun _ => Feeds.then ih fun _ => feeds_pure (by simp)

theorem convertReturnType_feeds (types : List ValType) : Feeds count count values (convertReturnType types) := by
  cases types with
  | nil => exact feeds_pure (by simp)
  | cons valType _ => exact convertValType_feeds _

theorem globalAt_feeds (environment : Environment) (index : Nat) :
    Feeds count count values (globalAt environment index) := by
  unfold globalAt
  split
  · exact convertValType_feeds _
  · exact feeds_throw _

theorem memAt_feeds (environment : Environment) : Feeds count count values (memAt environment) := by
  unfold memAt
  split
  · exact feeds_pure (by simp)
  · exact feeds_throw _

theorem loadExtension_feeds (opcode : LoadOpcode) (known : p1.Among values) :
    Feeds count count values (loadExtension opcode p1) := by
  cases opcode <;> first | exact feeds_pure (by simp [known]) | simp [loadExtension, known]

theorem storeConversion_feeds (opcode : StoreOpcode) (known : p1.Among values) :
    Feeds count count values (storeConversion opcode p1) := by
  cases opcode <;> first | exact feeds_pure (by simp [known]) | simp [storeConversion, known]

theorem createExtractLane_feeds (type : Ty) (imm : Nat) (sign : Bool) (known : p1.Among values) :
    Feeds count count values (createExtractLane p1 type imm sign) := by
  unfold createExtractLane
  refine Feeds.then (createCast_feeds _ _ known) fun vector => ?_
  refine Feeds.then (createExtractElement_feeds _ (by simp)) fun ret => ?_
  split <;> simp

theorem createReplaceNarrow_feeds (type narrow : Ty) (imm : Nat) (known1 : p1.Among values)
    (known2 : p2.Among values) : Feeds count count values (createReplaceNarrow type narrow p1 p2 imm) := by
  unfold createReplaceNarrow
  repeat' first | apply Feeds.then | intro _
  all_goals simp [known1, known2]

theorem createReplaceLane_feeds (type : Ty) (imm : Nat) (known1 : p1.Among values) (known2 : p2.Among values) :
    Feeds count count values (createReplaceLane type p1 p2 imm) := by
  unfold createReplaceLane
  repeat' first | apply Feeds.then | intro _
  all_goals simp [known1, known2]

@[simp] theorem arrayElementType_feeds (type : Ty) : Feeds count count values (arrayElementType type) := by
  unfold arrayElementType
  split
  · exact feeds_pure (by simp)
  · exact feeds_throw _

theorem createLoadLane_feeds (type : Ty) (imm : Nat) (known1 : p1.Among values) (known2 : p2.Among values) :
    Feeds count count values (createLoadLane p1 p2 type imm) := by
  unfold createLoadLane
  repeat' first | apply Feeds.then | intro _
  all_goals simp [known1, known2]

end Code

/-! ## The visits -/

section Visits

variable (environment : Environment) {values : List Value} {count : Nat}

theorem stop_feeds {takes leaves : Nat} (error : Abort) : Feeds takes leaves values (throw error : Emit Unit) :=
  feeds_throw error

theorem pushResult_feeds {ret : Option Value} (given : ret.isSome = true)
    (known : ∀ value ∈ ret.toList, value.Among values) : Feeds count (count + 1) values (pushResult ret) := by
  obtain ⟨value, rfl⟩ := Option.isSome_iff_exists.mp given
  exact pushStack_feeds (known value (List.mem_singleton_self _))

theorem visitConvertExpr_feeds {opcode : ConvertOpcode} (implemented : opcode.implemented = true) :
    Feeds 1 1 values (visitConvertExpr opcode) :=
  popStack_feeds.bind fun p1 => (convertCode_feeds opcode (by simp)).bindKnown
    (fun ran => ((convertCode_emits opcode p1).run ran).2) fun ret given =>
      pushResult_feeds (given.trans implemented) (by simp +contextual)

theorem visitUnaryInst_feeds (opcode : UnaryOpcode) : Feeds 1 1 values (visitUnaryInst opcode) :=
  popStack_feeds.bind fun p1 => (unaryCode_feeds opcode (by simp)).bind fun ret => pushStack_feeds (by simp)

theorem visitBinaryInst_feeds {opcode : BinaryOpcode} (implemented : opcode.implemented = true) :
    Feeds 2 1 values (visitBinaryInst opcode) :=
  popStack_feeds.bind fun p1 => popStack_feeds.bind fun p2 =>
    (binaryCode_feeds opcode (by simp) (by simp)).bindKnown
      (fun ran => ((binaryCode_emits opcode p1 p2).run ran).2) fun ret given =>
        pushResult_feeds (given.trans implemented) (by simp +contextual)

theorem visitCompareExpr_feeds (opcode : CompareOpcode) : Feeds 2 1 values (visitCompareExpr opcode) :=
  popStack_feeds.bind fun p1 => popStack_feeds.bind fun p2 =>
    (compareCode_feeds opcode (by simp) (by simp)).bind fun result =>
      (widenComparison_feeds result.2 (by simp)).bind fun ret => pushStack_feeds (by simp)

theorem convertStackAddr_feeds (offset : Nat) :
    Feeds (count + 1) count values (convertStackAddr environment offset) := by
  refine (memAt_feeds environment).bind fun size => popStack_feeds.bind fun base => ?_
  refine (createBinary_feeds _ (by simp) (by simp)).bind fun sum => ?_
  split
  · simp
  · simp

theorem visitLoadInst_feeds (opcode : LoadOpcode) (offset : Nat) :
    Feeds 1 1 values (visitLoadInst environment opcode offset) :=
  (convertStackAddr_feeds environment offset).bind fun _ =>
    (createLoad_feeds _ (by simp)).bind fun result => (loadExtension_feeds opcode (by simp)).bind fun ret =>
      pushStack_feeds (by simp)

theorem visitStoreInst_feeds (opcode : StoreOpcode) (offset : Nat) :
    Feeds 2 0 values (visitStoreInst environment opcode offset) :=
  popStack_feeds.bind fun val => (convertStackAddr_feeds environment offset).bind fun _ =>
    (storeConversion_feeds opcode (by simp)).bind fun _ =>
      (createStore_feeds (by simp) (by simp)).bind fun _ => feeds_pure (by simp)

theorem visitGlobalGet_feeds (index : Nat) : Feeds 0 1 values (visitGlobalGet environment index) :=
  (globalAt_feeds environment index).bind fun _ => (createLoad_feeds _ (by simp)).bind fun loaded =>
    pushStack_feeds (by simp)

theorem visitGlobalSet_feeds (index : Nat) : Feeds 1 0 values (visitGlobalSet environment index) :=
  popStack_feeds.bind fun _ => (globalAt_feeds environment index).bind fun _ =>
    (createStore_feeds (by simp) (by simp)).bind fun _ => feeds_pure (by simp)

theorem visitMemoryGrow_feeds : Feeds 1 1 values visitMemoryGrow :=
  popStack_feeds.bind fun _ => pushStack_feeds (by simp)

theorem visitMemorySize_feeds : Feeds 0 1 values visitMemorySize :=
  pushStack_feeds (by simp)

theorem visitMemoryCopy_feeds : Feeds 3 0 values (visitMemoryCopy environment) :=
  popStack_feeds.bind fun _ => (convertStackAddr_feeds environment 0).bind fun _ =>
    (convertStackAddr_feeds environment 0).bind fun _ =>
      (createMemCpy_feeds (by simp) (by simp) (by simp)).bind fun _ => feeds_pure (by simp)

theorem visitMemoryFill_feeds : Feeds 3 0 values (visitMemoryFill environment) :=
  popStack_feeds.bind fun _ => popStack_feeds.bind fun _ => (createCast_feeds _ _ (by simp)).bind fun _ =>
    (convertStackAddr_feeds environment 0).bind fun _ =>
      (createMemSet_feeds (by simp) (by simp) (by simp)).bind fun _ => feeds_pure (by simp)

theorem popArguments_feeds (arity : Nat) : Feeds (count + arity) count values (popArguments arity) := by
  induction arity generalizing values with
  | zero => exact feeds_pure (by simp)
  | succ arity ih =>
      unfold popArguments
      refine popStack_feeds.bind fun last => ih.bind fun before => feeds_pure fun value member => ?_
      rcases List.mem_append.mp member with old | new
      · exact .inr (List.mem_append_left _ old)
      · obtain rfl := List.mem_singleton.mp new
        simp

theorem popAll_feeds (arity : Nat) : Feeds arity 0 values (popArguments arity) := by
  have pops : Feeds (0 + arity) 0 values (popArguments arity) := popArguments_feeds arity
  rwa [Nat.zero_add] at pops

/-- The end of a call: its result is pushed if there is one. -/
theorem pushOne_feeds {results : List ValType} (single : ¬ 1 < results.length) {ret : Value}
    (known : ret.Among values) :
    Feeds 0 results.length values
      (if results.length ≠ 0 then Visit.pushStack ret else pure () : Emit Unit) := by
  rcases results with _ | ⟨type, _ | ⟨_, _⟩⟩
  · exact feeds_pure (by simp)
  · exact pushStack_feeds known
  · simp at single

theorem visitCallInst_feeds {func : Nat} {sig : FuncSignature} (found : environment.funcs[func]? = some sig) :
    Feeds sig.params.length sig.results.length values (visitCallInst environment func) := by
  unfold visitCallInst
  rw [found]
  refine (convertParams_feeds _).bind fun params => (convertReturnType_feeds _).bind fun result => ?_
  refine (popAll_feeds _).bind fun callArgs => ?_
  dsimp only
  split
  · exact stop_feeds _
  · rename_i single
    refine (createOp_feeds _ _ fun value member => ?_).bind fun ret => pushOne_feeds single (by simp)
    exact .inr (List.mem_append_left _ member)

theorem visitCallIndirectInst_feeds (sig : FuncSignature) (table : Nat) :
    Feeds (sig.params.length + 1) sig.results.length values (visitCallIndirectInst environment sig table) := by
  unfold visitCallIndirectInst
  split
  · exact stop_feeds _
  refine popStack_feeds.bind fun index => (convertParams_feeds _).bind fun params => ?_
  dsimp only
  split
  · exact stop_feeds _
  · rename_i single
    refine (convertReturnType_feeds _).bind fun result => ?_
    refine (createGEP_feeds _ (by simp) (by simp)).bind fun ptr => ?_
    refine (createLoad_feeds _ (by simp)).bind fun funcPtr => ?_
    refine (popAll_feeds _).bind fun callArgs => ?_
    refine (createOp_feeds _ _ fun value member => ?_).bind fun ret => pushOne_feeds single (by simp)
    rcases List.mem_cons.mp member with rfl | member
    · simp
    · exact .inr (List.mem_append_left _ member)

theorem visitSimdLaneOp_feeds (opcode : SimdLaneOpcode) (val : Nat) :
    Feeds opcode.signature.params.length 1 values (visitSimdLaneOp opcode val) := by
  unfold visitSimdLaneOp
  cases opcode
  case i8x16ReplaceLane | i16x8ReplaceLane =>
    refine popStack_feeds.bind fun _ => ?_
    refine Feeds.bind ?_ fun ret => pushStack_feeds (by simp)
    exact popStack_feeds.bind fun _ => createReplaceNarrow_feeds _ _ _ (by simp) (by simp)
  case i32x4ReplaceLane | i64x2ReplaceLane | f32x4ReplaceLane | f64x2ReplaceLane =>
    refine popStack_feeds.bind fun _ => ?_
    refine Feeds.bind ?_ fun ret => pushStack_feeds (by simp)
    exact popStack_feeds.bind fun _ => createReplaceLane_feeds _ _ (by simp) (by simp)
  all_goals
    exact popStack_feeds.bind fun _ =>
      (createExtractLane_feeds _ _ _ (by simp)).bind fun ret => pushStack_feeds (by simp)

theorem visitSimdLoadLane_feeds (opcode : LoadLaneOpcode) (val : Nat) :
    Feeds 2 1 values (visitSimdLoadLane opcode val) :=
  popStack_feeds.bind fun _ => popStack_feeds.bind fun _ =>
    (createLoadLane_feeds _ _ (by simp) (by simp)).bind fun ret => pushStack_feeds (by simp)

theorem visitSimdShuffle_feeds (val : List Nat) : Feeds 2 1 values (visitSimdShuffle val) :=
  popStack_feeds.bind fun _ => (createCast_feeds _ _ (by simp)).bind fun _ =>
    popStack_feeds.bind fun _ => (createCast_feeds _ _ (by simp)).bind fun _ =>
      (createShuffleVector_feeds _ (by simp) (by simp)).bind fun ret => pushStack_feeds (by simp)

theorem visitInstr_feedsAt {instr : Instr} (tracked : instr.desynchronises = false) :
    (instructions environment).FeedsAt (Instr.signature environment) instr := by
  intro sig found
  show Feeds _ _ _ (visitInstr environment instr)
  cases instr with
  | unary opcode =>
      obtain rfl := Option.some.inj found
      rw [opcode.signature_sizes.1, opcode.signature_sizes.2]
      exact visitUnaryInst_feeds opcode
  | binary opcode =>
      obtain rfl := Option.some.inj found
      rw [opcode.signature_sizes.1, opcode.signature_sizes.2]
      exact visitBinaryInst_feeds (by simpa [Instr.desynchronises] using tracked)
  | compare opcode =>
      obtain rfl := Option.some.inj found
      rw [opcode.signature_sizes.1, opcode.signature_sizes.2]
      exact visitCompareExpr_feeds opcode
  | convert opcode =>
      obtain rfl := Option.some.inj found
      rw [opcode.signature_sizes.1, opcode.signature_sizes.2]
      exact visitConvertExpr_feeds (by simpa [Instr.desynchronises] using tracked)
  | const value =>
      obtain rfl := Option.some.inj found
      refine pushStack_feeds ?_
      cases value <;> simp [visitConst]
  | call func => exact visitCallInst_feeds environment found
  | callIndirect sig' table =>
      obtain rfl := guarded_eq found
      rw [List.length_append]
      exact visitCallIndirectInst_feeds environment sig' table
  | load opcode offset =>
      obtain rfl := guarded_eq found
      exact visitLoadInst_feeds environment opcode offset
  | store opcode offset =>
      obtain rfl := guarded_eq found
      exact visitStoreInst_feeds environment opcode offset
  | globalGet index =>
      obtain ⟨_, _, rfl⟩ := Option.map_eq_some_iff.mp found
      exact visitGlobalGet_feeds environment index
  | globalSet index =>
      obtain ⟨_, _, rfl⟩ := Option.map_eq_some_iff.mp found
      exact visitGlobalSet_feeds environment index
  | memoryGrow =>
      obtain rfl := guarded_eq found
      exact visitMemoryGrow_feeds
  | memorySize =>
      obtain rfl := guarded_eq found
      exact visitMemorySize_feeds
  | memoryCopy =>
      obtain rfl := guarded_eq found
      exact visitMemoryCopy_feeds environment
  | memoryFill =>
      obtain rfl := guarded_eq found
      exact visitMemoryFill_feeds environment
  | simdLaneOp opcode val =>
      obtain rfl := Option.some.inj found
      rw [opcode.signature_result]
      exact visitSimdLaneOp_feeds opcode val
  | simdLoadLane opcode offset val =>
      obtain rfl := guarded_eq found
      exact visitSimdLoadLane_feeds opcode val
  | simdStoreLane opcode offset val => cases tracked
  | simdShuffle val =>
      obtain rfl := Option.some.inj found
      exact visitSimdShuffle_feeds val
  | other type sig' => exact stop_feeds _

end Visits

end WasmToLlvm.Instruction
