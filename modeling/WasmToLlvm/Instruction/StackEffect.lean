import WasmToLlvm.Block.Standing
import WasmToLlvm.Instruction.Emission

/-!
# Stack effects

What the visit of an instruction does to the symbolic stack, compared with the signature
of the instruction. A visit pops operands and then pushes results; where a function leaves
its result null the operands are gone and nothing takes their place, and a lane store
pushes the store itself.
-/

set_option autoImplicit false

namespace WasmToLlvm.Instruction

open Llvm Wasm Block Library

/-- A computation that pops values and then pushes others. -/
structure Effect {α : Type} (pops pushes : Nat) (emit : Emit α) : Prop where
  run : ∀ {before value after}, emit before = .ok (value, after) →
    ∃ popped pushed kept, before.stack = popped ++ kept ∧ popped.length = pops ∧
      after.stack = pushed ++ kept ∧ pushed.length = pushes

section Rules

variable {α β : Type} {emit : Emit α} {next : α → Emit β} {pops pops' pushes : Nat}

theorem Effect.bind (first : Effect pops 0 emit) (rest : ∀ value, Effect pops' pushes (next value)) :
    Effect (pops' + pops) pushes (emit >>= next) where
  run ran := by
    obtain ⟨value, state, ranFirst, ranRest⟩ := bind_ok.mp ran
    obtain ⟨popped, pushed, kept, before, count, middle, none⟩ := first.run ranFirst
    obtain ⟨popped', pushed', kept', before', count', after, pushes⟩ := (rest value).run ranRest
    obtain rfl := List.length_eq_zero_iff.mp none
    rw [List.nil_append] at middle
    refine ⟨popped ++ popped', pushed', kept', ?_, ?_, after, pushes⟩
    · rw [before, ← middle, before', List.append_assoc]
    · rw [List.length_append, count, count', Nat.add_comm]

/-- The last pops before the pushes. -/
theorem Effect.last (first : Effect pops 0 emit) (rest : ∀ value, Effect 0 pushes (next value)) :
    Effect pops pushes (emit >>= next) := by
  simpa only [Nat.zero_add] using first.bind rest

/-- Creating code between pops and pushes. -/
theorem Emits.then {known : α → Prop} (first : Emits emit known)
    (rest : ∀ value, known value → Effect pops pushes (next value)) :
    Effect pops pushes (emit >>= next) where
  run ran := by
    obtain ⟨value, state, ranFirst, ranRest⟩ := bind_ok.mp ran
    obtain ⟨extends_, holds⟩ := first.run ranFirst
    rw [← extends_.stack]
    exact (rest value holds).run ranRest

theorem Emits.effect {known : α → Prop} (emits : Emits emit known) : Effect 0 0 emit where
  run ran := ⟨[], [], _, rfl, rfl, (emits.run ran).1.stack, rfl⟩

theorem Effect.throw (error : Abort) : Effect pops pushes (throw error : Emit α) where
  run ran := by cases ran

theorem popStack_effect : Effect 1 0 (Visit.popStack : Emit Value) where
  run {before _ after} ran := by
    rw [Visit.popStack] at ran
    split at ran
    · rename_i value rest top
      obtain ⟨rfl, rfl⟩ := Prod.mk.inj (Except.ok.inj ran)
      exact ⟨[value], [], rest, top, rfl, rfl, rfl⟩
    · cases ran

theorem pushStack_effect (value : Value) : Effect 0 1 (Visit.pushStack value : Emit Unit) where
  run {before _ after} ran := by
    obtain ⟨_, rfl⟩ := Prod.mk.inj (Except.ok.inj ran)
    exact ⟨[], [value], before.stack, rfl, rfl, rfl, rfl⟩

theorem pushResult_effect {ret : Option Value} {pushed : Bool} (given : ret.isSome = pushed) :
    Effect 0 pushed.toNat (pushResult ret) := by
  subst given
  cases ret with
  | none => exact (quiet_pure ()).effect
  | some value => exact pushStack_effect value

theorem popArguments_effect (count : Nat) : Effect count 0 (popArguments count) := by
  induction count with
  | zero => exact (quiet_pure []).effect
  | succ count ih =>
      unfold popArguments
      exact popStack_effect.bind fun last => ih.last fun before => (quiet_pure _).effect

end Rules

/-! ## The visits -/

section Visits

variable (environment : Environment)

theorem emits_some {emit : Emit Value} (quiet : Quiet emit) :
    Emits (some <$> emit) fun ret => ret.isSome = true :=
  Emits.map quiet fun _ _ => rfl

/-- The conversions `visitConvertExpr` has no case for. -/
def ConvertOpcode.implemented : ConvertOpcode → Bool
  | .i32TruncSatF32S | .i32TruncSatF32U | .i32TruncSatF64S | .i32TruncSatF64U
  | .i64TruncSatF32S | .i64TruncSatF32U | .i64TruncSatF64S | .i64TruncSatF64U => false
  | _ => true

/-- The instructions `visitBinaryInst` has no case for. -/
def BinaryOpcode.implemented : BinaryOpcode → Bool
  | .i8x16Swizzle | .i8x16NarrowI16x8S | .i8x16NarrowI16x8U | .i16x8NarrowI32x4S
  | .i16x8NarrowI32x4U | .i32x4DotI16x8S => false
  | _ => true

theorem convertCode_emits (opcode : ConvertOpcode) (p1 : Value) :
    Emits (convertCode opcode p1) fun ret => ret.isSome = opcode.implemented := by
  cases opcode
  case i32Eqz | i64Eqz =>
    exact Emits.bind (createICmp_quiet ..) fun _ _ => emits_some (by simp)
  all_goals first | exact emits_some (by simp) | exact .pure rfl

theorem binaryCode_emits (opcode : BinaryOpcode) (p1 p2 : Value) :
    Emits (binaryCode opcode p1 p2) fun ret => ret.isSome = opcode.implemented := by
  cases opcode
  case v128Andnot =>
    exact Emits.bind (createNot_quiet ..) fun _ _ => emits_some (by simp)
  all_goals first | exact emits_some (by simp [createSaturating]) | exact .pure rfl

theorem visitConvertExpr_effect (opcode : ConvertOpcode) :
    Effect 1 opcode.implemented.toNat (visitConvertExpr opcode) :=
  popStack_effect.bind fun p1 =>
    (convertCode_emits opcode p1).then fun _ given => pushResult_effect given

theorem visitUnaryInst_effect (opcode : UnaryOpcode) : Effect 1 1 (visitUnaryInst opcode) :=
  popStack_effect.bind fun p1 =>
    (unaryCode_quiet p1 opcode).then fun ret _ => pushStack_effect ret

theorem visitBinaryInst_effect (opcode : BinaryOpcode) :
    Effect 2 opcode.implemented.toNat (visitBinaryInst opcode) :=
  popStack_effect.bind fun p1 => popStack_effect.bind fun p2 =>
    (binaryCode_emits opcode p1 p2).then fun _ given => pushResult_effect given

theorem visitCompareExpr_effect (opcode : CompareOpcode) : Effect 2 1 (visitCompareExpr opcode) :=
  popStack_effect.bind fun p1 => popStack_effect.bind fun p2 =>
    (compareCode_quiet p1 p2 opcode).then fun result _ =>
      (widenComparison_quiet result.1 result.2).then fun ret _ => pushStack_effect ret

theorem convertStackAddr_effect (offset : Nat) : Effect 1 0 (convertStackAddr environment offset) := by
  refine (memAt_quiet environment).then fun size _ => popStack_effect.bind fun base => ?_
  refine (createBinary_quiet ..).then fun sum _ => ?_
  split
  · exact (createCast_quiet ..).effect
  · exact (createGEP_quiet ..).effect

theorem visitLoadInst_effect (opcode : LoadOpcode) (offset : Nat) :
    Effect 1 1 (visitLoadInst environment opcode offset) :=
  (convertStackAddr_effect environment offset).bind fun _ =>
    (createLoad_quiet ..).then fun result _ => (loadExtension_quiet result opcode).then fun ret _ =>
      pushStack_effect ret

theorem visitStoreInst_effect (opcode : StoreOpcode) (offset : Nat) :
    Effect 2 0 (visitStoreInst environment opcode offset) :=
  popStack_effect.bind fun val =>
    (convertStackAddr_effect environment offset).bind fun _ =>
      (storeConversion_quiet val opcode).then fun _ _ =>
        (createStore_quiet ..).then fun _ _ => (quiet_pure _).effect

theorem visitGlobalGet_effect (index : Nat) : Effect 0 1 (visitGlobalGet environment index) :=
  (globalAt_quiet environment index).then fun _ _ => (createLoad_quiet ..).then fun loaded _ =>
    pushStack_effect loaded

theorem visitGlobalSet_effect (index : Nat) : Effect 1 0 (visitGlobalSet environment index) :=
  popStack_effect.bind fun _ => (globalAt_quiet environment index).then fun _ _ =>
    (createStore_quiet ..).then fun _ _ => (quiet_pure _).effect

theorem visitMemoryCopy_effect : Effect 3 0 (visitMemoryCopy environment) :=
  popStack_effect.bind fun _ =>
    (convertStackAddr_effect environment 0).bind fun _ =>
      (convertStackAddr_effect environment 0).bind fun _ =>
        (createMemCpy_quiet ..).then fun _ _ => (quiet_pure _).effect

theorem visitMemoryFill_effect : Effect 3 0 (visitMemoryFill environment) :=
  popStack_effect.bind fun _ => popStack_effect.bind fun _ =>
    (createCast_quiet ..).then fun _ _ =>
      (convertStackAddr_effect environment 0).bind fun _ =>
        (createMemSet_quiet ..).then fun _ _ => (quiet_pure _).effect

/-- The end of a call: its result is pushed if there is one. -/
theorem pushOne_effect {results : List ValType} (single : ¬ 1 < results.length) (ret : Value) :
    Effect 0 results.length (if results.length ≠ 0 then Visit.pushStack ret else pure () : Emit Unit) := by
  rcases results with _ | ⟨type, _ | ⟨_, _⟩⟩
  · exact (quiet_pure ()).effect
  · exact pushStack_effect ret
  · simp at single

theorem visitCallInst_effect {func : Nat} {sig : FuncSignature} (found : environment.funcs[func]? = some sig) :
    Effect sig.params.length sig.results.length (visitCallInst environment func) := by
  unfold visitCallInst
  rw [found]
  refine (convertParams_quiet _).then fun params _ => (convertReturnType_quiet _).then fun result _ => ?_
  refine (popArguments_effect _).last fun callArgs => ?_
  dsimp only
  split
  · exact .throw _
  · rename_i single
    exact (createOp_quiet ..).then fun ret _ => pushOne_effect single ret

theorem visitCallIndirectInst_effect (sig : FuncSignature) (table : Nat) :
    Effect (sig.params.length + 1) sig.results.length (visitCallIndirectInst environment sig table) := by
  unfold visitCallIndirectInst
  split
  · exact .throw _
  refine popStack_effect.bind fun _ => (convertParams_quiet _).then fun params _ => ?_
  dsimp only
  split
  · exact .throw _
  · rename_i single
    refine (convertReturnType_quiet _).then fun result _ => ?_
    refine (createGEP_quiet ..).then fun ptr _ => (createLoad_quiet ..).then fun funcPtr _ => ?_
    exact (popArguments_effect _).last fun _ =>
      (createOp_quiet ..).then fun ret _ => pushOne_effect single ret

theorem visitSimdLaneOp_effect (opcode : SimdLaneOpcode) (val : Nat) :
    Effect opcode.signature.params.length 1 (visitSimdLaneOp opcode val) := by
  unfold visitSimdLaneOp
  cases opcode
  case i8x16ReplaceLane | i16x8ReplaceLane =>
    refine popStack_effect.bind fun _ => ?_
    refine Effect.bind ?_ fun ret => pushStack_effect ret
    exact popStack_effect.bind fun _ => (createReplaceNarrow_quiet ..).effect
  case i32x4ReplaceLane | i64x2ReplaceLane | f32x4ReplaceLane | f64x2ReplaceLane =>
    refine popStack_effect.bind fun _ => ?_
    refine Effect.bind ?_ fun ret => pushStack_effect ret
    exact popStack_effect.bind fun _ => (createReplaceLane_quiet ..).effect
  all_goals
    exact popStack_effect.bind fun _ =>
      (createExtractLane_quiet ..).then fun ret _ => pushStack_effect ret

theorem visitSimdLoadLane_effect (opcode : LoadLaneOpcode) (val : Nat) :
    Effect 2 1 (visitSimdLoadLane opcode val) :=
  popStack_effect.bind fun _ => popStack_effect.bind fun _ =>
    (createLoadLane_quiet ..).then fun ret _ => pushStack_effect ret

/-- The value pushed is the store. -/
theorem visitSimdStoreLane_effect (opcode : StoreLaneOpcode) (val : Nat) :
    Effect 2 1 (visitSimdStoreLane opcode val) :=
  popStack_effect.bind fun _ => popStack_effect.bind fun _ =>
    (createStoreLane_quiet ..).then fun ret _ => pushStack_effect ret

theorem visitSimdShuffle_effect (val : List Nat) : Effect 2 1 (visitSimdShuffle val) :=
  popStack_effect.bind fun _ => (createCast_quiet ..).then fun _ _ =>
    popStack_effect.bind fun _ => (createCast_quiet ..).then fun _ _ =>
      (createShuffleVector_quiet ..).then fun ret _ => pushStack_effect ret

end Visits

/-! ## Instructions that lose the stack -/

/-- The instructions translated with a stack effect other than that of their signature. -/
def Instr.desynchronises : Instr → Bool
  | .binary opcode => !opcode.implemented
  | .convert opcode => !opcode.implemented
  | .simdStoreLane _ _ _ => true
  | _ => false

theorem UnaryOpcode.signature_sizes (opcode : UnaryOpcode) :
    opcode.signature.params.length = 1 ∧ opcode.signature.results.length = 1 := by
  cases opcode <;> decide

theorem BinaryOpcode.signature_sizes (opcode : BinaryOpcode) :
    opcode.signature.params.length = 2 ∧ opcode.signature.results.length = 1 := by
  cases opcode <;> decide

theorem CompareOpcode.signature_sizes (opcode : CompareOpcode) :
    opcode.signature.params.length = 2 ∧ opcode.signature.results.length = 1 := by
  cases opcode <;> decide

theorem ConvertOpcode.signature_sizes (opcode : ConvertOpcode) :
    opcode.signature.params.length = 1 ∧ opcode.signature.results.length = 1 := by
  cases opcode <;> decide

theorem SimdLaneOpcode.signature_result (opcode : SimdLaneOpcode) :
    opcode.signature.results.length = 1 := by
  cases opcode <;> decide

theorem guarded_eq {condition : Prop} [Decidable condition] {sig sig' : FuncSignature}
    (found : (if condition then some sig' else none) = some sig) : sig' = sig :=
  Option.some.inj (Option.ite_none_right_eq_some.mp found).2

theorem visitInstr_effect {environment : Environment} {instr : Instr} {sig : FuncSignature}
    (found : instr.signature environment = some sig) (tracked : instr.desynchronises = false) :
    Effect sig.params.length sig.results.length (visitInstr environment instr) := by
  cases instr with
  | unary opcode =>
      obtain rfl := Option.some.inj found
      rw [opcode.signature_sizes.1, opcode.signature_sizes.2]
      exact visitUnaryInst_effect opcode
  | binary opcode =>
      obtain rfl := Option.some.inj found
      have implemented : opcode.implemented = true := by simpa [Instr.desynchronises] using tracked
      have effect := visitBinaryInst_effect opcode
      rw [implemented] at effect
      rw [opcode.signature_sizes.1, opcode.signature_sizes.2]
      exact effect
  | compare opcode =>
      obtain rfl := Option.some.inj found
      rw [opcode.signature_sizes.1, opcode.signature_sizes.2]
      exact visitCompareExpr_effect opcode
  | convert opcode =>
      obtain rfl := Option.some.inj found
      have implemented : opcode.implemented = true := by simpa [Instr.desynchronises] using tracked
      have effect := visitConvertExpr_effect opcode
      rw [implemented] at effect
      rw [opcode.signature_sizes.1, opcode.signature_sizes.2]
      exact effect
  | const value =>
      obtain rfl := Option.some.inj found
      exact pushStack_effect _
  | call func => exact visitCallInst_effect environment found
  | callIndirect sig' table =>
      obtain rfl := guarded_eq found
      rw [List.length_append]
      exact visitCallIndirectInst_effect environment sig' table
  | load opcode offset =>
      obtain rfl := guarded_eq found
      exact visitLoadInst_effect environment opcode offset
  | store opcode offset =>
      obtain rfl := guarded_eq found
      exact visitStoreInst_effect environment opcode offset
  | globalGet index =>
      obtain ⟨_, _, rfl⟩ := Option.map_eq_some_iff.mp found
      exact visitGlobalGet_effect environment index
  | globalSet index =>
      obtain ⟨_, _, rfl⟩ := Option.map_eq_some_iff.mp found
      exact visitGlobalSet_effect environment index
  | memoryGrow =>
      obtain rfl := guarded_eq found
      exact popStack_effect.bind fun _ => pushStack_effect _
  | memorySize =>
      obtain rfl := guarded_eq found
      exact pushStack_effect _
  | memoryCopy =>
      obtain rfl := guarded_eq found
      exact visitMemoryCopy_effect environment
  | memoryFill =>
      obtain rfl := guarded_eq found
      exact visitMemoryFill_effect environment
  | simdLaneOp opcode val =>
      obtain rfl := Option.some.inj found
      rw [opcode.signature_result]
      exact visitSimdLaneOp_effect opcode val
  | simdLoadLane opcode offset val =>
      obtain rfl := guarded_eq found
      exact visitSimdLoadLane_effect opcode val
  | simdStoreLane opcode offset val => cases tracked
  | simdShuffle val =>
      obtain rfl := Option.some.inj found
      exact visitSimdShuffle_effect val
  | other type sig' => exact .throw _

/-- The results an instruction that loses the stack pushes, and those it should push. -/
theorem visitInstr_desynchronises {environment : Environment} {instr : Instr} {sig : FuncSignature}
    (found : instr.signature environment = some sig) (lost : instr.desynchronises = true) :
    ∃ pushes, pushes ≠ sig.results.length ∧
      Effect sig.params.length pushes (visitInstr environment instr) := by
  cases instr with
  | binary opcode =>
      obtain rfl := Option.some.inj found
      have missing : opcode.implemented = false := by simpa [Instr.desynchronises] using lost
      have effect := visitBinaryInst_effect opcode
      rw [missing] at effect
      rw [opcode.signature_sizes.1, opcode.signature_sizes.2]
      exact ⟨0, by decide, effect⟩
  | convert opcode =>
      obtain rfl := Option.some.inj found
      have missing : opcode.implemented = false := by simpa [Instr.desynchronises] using lost
      have effect := visitConvertExpr_effect opcode
      rw [missing] at effect
      rw [opcode.signature_sizes.1, opcode.signature_sizes.2]
      exact ⟨0, by decide, effect⟩
  | simdStoreLane opcode offset val =>
      obtain rfl := guarded_eq found
      exact ⟨1, by decide, visitSimdStoreLane_effect opcode val⟩
  | unary | compare | const | call | callIndirect | load | store | globalGet | globalSet | memoryGrow
  | memorySize | memoryCopy | memoryFill | simdLaneOp | simdLoadLane | simdShuffle | other => cases lost

theorem createCast_ok (kind : CastOp) (value : Value) (type : Ty) (straight : Straight Operation) :
    ∃ result after, createCast kind value type straight = .ok (result, after) ∧ result.type = type := by
  unfold createCast
  split
  · rename_i same
    exact ⟨value, straight, rfl, same⟩
  · exact ⟨_, _, rfl, rfl⟩

/-- Without a case for its opcode an instruction is translated all the same. -/
theorem visitInstr_lost {environment : Environment} {instr : Instr} {sig : FuncSignature}
    (found : instr.signature environment = some sig) (lost : instr.desynchronises = true)
    {straight : Straight Operation} (enough : sig.params.length ≤ straight.stack.length) :
    ∃ after, visitInstr environment instr straight = .ok ((), after) := by
  obtain ⟨stack, locals, next, code⟩ := straight
  cases instr with
  | binary opcode =>
      obtain rfl := Option.some.inj found
      rw [opcode.signature_sizes.1] at enough
      obtain ⟨p1, _ | ⟨p2, rest⟩, rfl⟩ := List.exists_cons_of_length_pos (Nat.le_of_succ_le enough)
      · simp at enough
      · cases opcode <;> first | exact ⟨_, rfl⟩ | cases lost
  | convert opcode =>
      obtain rfl := Option.some.inj found
      rw [opcode.signature_sizes.1] at enough
      obtain ⟨p1, rest, rfl⟩ := List.exists_cons_of_length_pos enough
      cases opcode <;> first | exact ⟨_, rfl⟩ | cases lost
  | simdStoreLane opcode offset val =>
      obtain rfl := guarded_eq found
      obtain ⟨vec, _ | ⟨addr, rest⟩, rfl⟩ := List.exists_cons_of_length_pos (Nat.le_of_succ_le enough)
      · simp at enough
      · have stored : ∃ ret after, createStoreLane vec addr opcode.type val
            ⟨rest, locals, next, code⟩ = .ok (ret, after) := by
          unfold createStoreLane
          obtain ⟨vector, state, ran, isVector⟩ := createCast_ok .bitCast vec opcode.type
            ⟨rest, locals, next, code⟩
          rw [bind_run_ok ran]
          obtain ⟨pointer, state', ran', _⟩ := createCast_ok .bitCast addr .ptr state
          rw [bind_run_ok ran', createExtractElement, isVector]
          cases opcode <;> exact ⟨_, _, rfl⟩
        obtain ⟨ret, after, ran⟩ := stored
        exact ⟨{ after with stack := ret :: after.stack }, bind_run_ok ran⟩
  | unary | compare | const | call | callIndirect | load | store | globalGet | globalSet | memoryGrow
  | memorySize | memoryCopy | memoryFill | simdLaneOp | simdLoadLane | simdShuffle | other => cases lost

/-! ## Dispatch

The stack effect of every expression that `dispatchExprs` is called for. -/

/-- The numbers of operands and results of a straight-line expression; `unreachable` takes
and leaves none. -/
def arity? (environment : Environment) : Expr Instr → Option (Nat × Nat)
  | .unreachable | .nop => some (0, 0)
  | .drop => some (1, 0)
  | .select _ => some (3, 1)
  | .localGet _ => some (0, 1)
  | .localSet _ => some (1, 0)
  | .localTee _ => some (1, 1)
  | .instr instr =>
      (instr.signature environment).map fun sig => (sig.params.length, sig.results.length)
  | .block _ _ | .loop _ _ | .if_ _ _ _ | .br _ | .brIf _ | .brTable _ _ | .return_ => none

/-- The instructions translated with another stack effect, as expressions. -/
def desynchronises : Expr Instr → Bool
  | .instr instr => instr.desynchronises
  | _ => false

/-- The operands are replaced by the results and what is below them is left alone. -/
def StackEffect (pops pushes : Nat) (stack stack' : List Value) : Prop :=
  ∃ results, stack' = results ++ stack.drop pops ∧ results.length = pushes

theorem Effect.stack {α : Type} {visit : Emit α} {pops pushes : Nat} {value : α}
    (effect : Effect pops pushes visit) {context next : BlockContext Operation}
    (ran : straight visit context = .ok (value, next)) :
    StackEffect pops pushes context.stack next.stack := by
  unfold straight at ran
  split at ran
  · rename_i visited
    obtain ⟨_, rfl⟩ := Prod.mk.inj (Except.ok.inj ran)
    obtain ⟨popped, pushed, kept, before, count, after, pushes⟩ := effect.run visited
    refine ⟨pushed, ?_, pushes⟩
    rw [show context.stack = popped ++ kept from before, ← count, List.drop_left]
    exact after
  · cases ran

theorem visitSelectExpr_effect : Effect 3 1 (visitSelectExpr : Emit Unit) where
  run ran := by
    obtain ⟨condition, right, left, rest, before, rfl⟩ := visitSelectExpr_ok.mp ran
    exact ⟨[condition, right, left], [_], rest, before, rfl, rfl, rfl⟩

theorem visitLocalGet_effect (index : Nat) : Effect 0 1 (visitLocalGet index : Emit Unit) where
  run ran := by
    obtain ⟨target, _, rfl⟩ := visitLocalGet_ok.mp ran
    exact ⟨[], [_], _, rfl, rfl, rfl, rfl⟩

theorem visitLocalSet_effect (index : Nat) : Effect 1 0 (visitLocalSet index : Emit Unit) where
  run ran := by
    obtain ⟨value, rest, target, before, _, rfl⟩ := visitLocalSet_ok.mp ran
    exact ⟨[value], [], rest, before, rfl, rfl, rfl⟩

theorem visitLocalTee_effect (index : Nat) : Effect 1 1 (visitLocalTee index : Emit Unit) where
  run ran := by
    obtain ⟨value, rest, target, before, _, rfl⟩ := visitLocalTee_ok.mp ran
    exact ⟨[value], [value], rest, before, rfl, before, rfl⟩

/-- Translation stops at a straight-line expression or has the stack effect of its
signature, unless the expression is one of those that lose the stack. -/
theorem dispatchExprs_effect {environment : Environment} {expr : Expr Instr} {pops pushes : Nat}
    (counted : arity? environment expr = some (pops, pushes)) (tracked : desynchronises expr = false)
    {context next : BlockContext Operation}
    (ran : dispatchExprs (instructions environment) expr context = .ok ((), next)) :
    StackEffect pops pushes context.stack next.stack := by
  cases expr with
  | unreachable =>
      obtain ⟨rfl, rfl⟩ := Prod.mk.inj (Option.some.inj counted)
      obtain ⟨_, rfl⟩ := Prod.mk.inj (Except.ok.inj ran)
      refine ⟨[], ?_, rfl⟩
      simp only [BlockContext.insert]
      split <;> rfl
  | nop =>
      obtain ⟨rfl, rfl⟩ := Prod.mk.inj (Option.some.inj counted)
      obtain ⟨_, rfl⟩ := Prod.mk.inj (Except.ok.inj ran)
      exact ⟨[], rfl, rfl⟩
  | drop =>
      obtain ⟨rfl, rfl⟩ := Prod.mk.inj (Option.some.inj counted)
      obtain ⟨value, middle, popped, ended⟩ := bind_ok.mp ran
      obtain ⟨_, rfl⟩ := Prod.mk.inj (Except.ok.inj ended)
      exact popStack_effect.stack popped
  | select type =>
      obtain ⟨rfl, rfl⟩ := Prod.mk.inj (Option.some.inj counted)
      exact visitSelectExpr_effect.stack ran
  | localGet index =>
      obtain ⟨rfl, rfl⟩ := Prod.mk.inj (Option.some.inj counted)
      exact (visitLocalGet_effect index).stack ran
  | localSet index =>
      obtain ⟨rfl, rfl⟩ := Prod.mk.inj (Option.some.inj counted)
      exact (visitLocalSet_effect index).stack ran
  | localTee index =>
      obtain ⟨rfl, rfl⟩ := Prod.mk.inj (Option.some.inj counted)
      exact (visitLocalTee_effect index).stack ran
  | instr instr =>
      obtain ⟨sig, found, sizes⟩ := Option.map_eq_some_iff.mp counted
      obtain ⟨rfl, rfl⟩ := Prod.mk.inj sizes
      exact (visitInstr_effect found tracked).stack ran
  | block | loop | if_ | br | brIf | brTable | return_ => cases counted

/-- Translation goes on behind an expression that loses the stack, without the effect of
its signature. -/
theorem dispatchExprs_loses {environment : Environment} {expr : Expr Instr} {pops pushes : Nat}
    (counted : arity? environment expr = some (pops, pushes)) (lost : desynchronises expr = true)
    {context : BlockContext Operation} (enough : pops ≤ context.stack.length) :
    ∃ next, dispatchExprs (instructions environment) expr context = .ok ((), next) ∧
      ¬ StackEffect pops pushes context.stack next.stack := by
  cases expr with
  | instr instr =>
      obtain ⟨sig, found, sizes⟩ := Option.map_eq_some_iff.mp counted
      obtain ⟨rfl, rfl⟩ := Prod.mk.inj sizes
      obtain ⟨after, visited⟩ := visitInstr_lost found lost
        (show sig.params.length ≤ (visitStart context).stack.length from enough)
      have ran : straight (visitInstr environment instr) context =
          .ok ((), { context.insertAll after.code with stack := after.stack }) := by
        rw [straight, ← visitStart, visited]
      obtain ⟨actual, different, effect⟩ := visitInstr_desynchronises found lost
      refine ⟨_, ran, ?_⟩
      rintro ⟨results, stack, count⟩
      obtain ⟨results', stack', count'⟩ := effect.stack ran
      have lengths := congrArg List.length (stack'.symm.trans stack)
      simp only [List.length_append, count, count', Nat.add_right_cancel_iff] at lengths
      exact different lengths
  | unreachable | nop | drop | select | localGet | localSet | localTee | block | loop | if_ | br | brIf
  | brTable | return_ => cases lost

/-- Where the symbolic stack holds the operands of a straight-line expression, translation
stops there or the stack changes as the signature says, exactly when the expression is not
one of those that lose the stack. -/
theorem dispatchExprs_effect_iff {environment : Environment} {expr : Expr Instr} {pops pushes : Nat}
    (counted : arity? environment expr = some (pops, pushes)) {context : BlockContext Operation}
    (enough : pops ≤ context.stack.length) :
    (∀ next, dispatchExprs (instructions environment) expr context = .ok ((), next) →
        StackEffect pops pushes context.stack next.stack) ↔ desynchronises expr = false := by
  constructor
  · intro exact_
    by_contra lost
    obtain ⟨next, ran, differs⟩ := dispatchExprs_loses counted (by simpa using lost) enough
    exact differs (exact_ next ran)
  · intro tracked next ran
    exact dispatchExprs_effect counted tracked ran

theorem dispatchExprs_effect_iff_add :
    (∀ next, dispatchExprs (instructions ⟨false, [], [], [], []⟩) (.instr (.binary .i32Add))
        ⟨.empty, none, [], [], [.int 32 2, .int 32 1], []⟩ = .ok ((), next) →
        StackEffect 2 1 [.int 32 2, .int 32 1] next.stack) ↔
      desynchronises (.instr (.binary .i32Add)) = false :=
  dispatchExprs_effect_iff rfl (Nat.le_refl 2)

/-- A saturating conversion takes its operand away and pushes nothing. -/
theorem dispatchExprs_truncSat_loses :
    ¬ ∀ (environment : Environment) (expr : Expr Instr) (pops pushes : Nat)
      (context : BlockContext Operation), arity? environment expr = some (pops, pushes) →
      pops ≤ context.stack.length →
      ∀ next, dispatchExprs (instructions environment) expr context = .ok ((), next) →
        StackEffect pops pushes context.stack next.stack := by
  intro always
  obtain ⟨results, stack, count⟩ := always ⟨false, [], [], [], []⟩
    (.instr (.convert .i32TruncSatF32S)) 1 1 ⟨.empty, none, [], [], [.float 0], []⟩ rfl (Nat.le_refl 1)
    _ rfl
  rw [show results = [] from (List.append_eq_nil_iff.mp stack.symm).1] at count
  cases count

end WasmToLlvm.Instruction
