import WasmToLlvm.Block.Success
import WasmToLlvm.Llvm.WellFormed

/-!
# The shape of the control-flow graph

Between two expressions every block is finished, except the block of the
insertion point and the exit blocks of the labels that are open, which have
nothing but phis.
-/

set_option autoImplicit false

namespace WasmToLlvm.Block

open Llvm Wasm Library BlockContext

namespace BlockContext

variable {Op : Type} (context : BlockContext Op) (block : Nat)

@[simp] theorem emitAll_getInsertBlock (insts : List (Inst Op)) :
    (context.emitAll block insts).getInsertBlock = some block := rfl

@[simp] theorem moveTo_getInsertBlock : (context.moveTo block).getInsertBlock = some block := rfl

@[simp] theorem clear_getInsertBlock : context.clear.getInsertBlock = none := rfl

@[simp] theorem addTargets_getInsertBlock (switch source i : Nat) (labels : List BreakoutTarget) :
    (context.addTargets switch source labels i).getInsertBlock = context.getInsertBlock := by
  simp [getInsertBlock]

end BlockContext

/-- The invariant on the insertion point, the open labels and the finished blocks. -/
structure Shaped {Op : Type} (pending : List Nat) (context : BlockContext Op) : Prop where
  staged : context.function.Staged pending context.getInsertBlock
  labels : ∀ label ∈ context.blockStack,
    0 < label.target ∧ label.target < context.function.blocks.length

section Operations

variable {Op : Type} {context : BlockContext Op} {block : Nat} {pending : List Nat}

theorem Shaped.at (shaped : Shaped pending context) (here : context.At block) :
    context.function.Staged pending (some block) :=
  here.getInsertBlock ▸ shaped.staged

theorem phiInsts_isPhi (types : List Ty) (index : Nat) :
    ∀ inst ∈ (phiInsts index types : List (Inst Op)), inst.isPhi := by
  induction types generalizing index with
  | nil => simp [phiInsts]
  | cons type types ih =>
      intro inst member
      rcases List.mem_cons.mp member with rfl | member
      · rfl
      · exact ih (index + 1) inst member

theorem paramInsts_isPhi (types : List Ty) :
    ∀ inst ∈ (paramInsts types : List (Inst Op)), inst.isPhi := by
  induction types with
  | nil => simp [paramInsts]
  | cons type types ih =>
      intro inst member
      rcases List.mem_cons.mp member with rfl | member
      · rfl
      · exact ih inst member

theorem addTargets_staged {switch source : Nat} {labels : List BreakoutTarget}
    (staged : context.function.Staged pending none)
    (inside : ∀ label ∈ labels, 0 < label.target ∧ label.target < context.function.blocks.length)
    (i : Nat) :
    (context.addTargets switch source labels i).function.Staged pending none := by
  induction labels generalizing context i with
  | nil => exact staged
  | cons label labels ih =>
      rw [BlockContext.addTargets]
      refine ih ?_ ?_ (i + 1)
      · exact (staged.addCase switch i (inside label (by simp))).addIncomings _ _
      · exact fun other member => inside other (List.mem_cons_of_mem _ member)

/-- The end of a body closes the current block. -/
theorem flowInto_staged {exit : Nat} (phis : List PHINode) (placed : context.Placed)
    (staged : context.function.Staged pending context.getInsertBlock)
    (inside : 0 < exit ∧ exit < context.function.blocks.length) :
    (context.flowInto exit phis).function.Staged pending none := by
  rcases placed with nowhere | ⟨block, here⟩
  · have unplaced : context.getInsertBlock = none := by simp [getInsertBlock, nowhere]
    rw [unplaced] at staged
    rw [flowInto, unplaced]
    exact staged
  · rw [flowInto, here.getInsertBlock]
    rw [here.getInsertBlock] at staged
    refine (staged.addIncomings _ _).close (by rfl) ?_
    simpa [Inst.targets] using inside

end Operations

variable {I : InstructionSet}

theorem Step.shaped {context next : BlockContext I.Op} {block : Nat} {expr : Expr I.Instr}
    {pending : List Nat} (step : Step I context block expr next) (here : context.At block)
    (shaped : Shaped pending context) : Shaped pending next := by
  have staged := shaped.at here
  have inside : ∀ {depth : Nat} {label : BreakoutTarget}, context.blockStack[depth]? = some label →
      0 < label.target ∧ label.target < context.function.blocks.length :=
    fun found => shaped.labels _ (List.mem_of_getElem? found)
  have positive : 0 < context.function.blocks.length := Nat.lt_of_le_of_lt (Nat.zero_le _) here.bound
  have labels : ∀ label ∈ next.blockStack,
      0 < label.target ∧ label.target < next.function.blocks.length := by
    intro label member
    rw [step.blockStack] at member
    obtain ⟨low, high⟩ := shaped.labels label member
    exact ⟨low, Nat.lt_of_lt_of_le high step.blocks_le⟩
  refine ⟨?_, labels⟩
  cases step with
  | straight code ran =>
      refine staged.appendPlains fun inst member => ?_
      obtain ⟨plain, _, rfl⟩ := List.mem_map.mp member
      rfl
  | unreachable => exact staged.close (by rfl) (by simp [Inst.targets])
  | br branches =>
      refine (staged.addIncomings _ _).close (by rfl) ?_
      simpa [Inst.targets] using inside branches.found
  | return_ outermost branches =>
      refine (staged.addIncomings _ _).close (by rfl) ?_
      simpa [Inst.targets] using inside branches.found
  | @brIf _ value rest label top branches =>
      have compared : (context.compareZero block value rest).function.Staged pending (some block) :=
        staged.appendPlains (by simp [Inst.isPlain])
      have blocks : (context.compareZero block value rest).function.blocks.length =
          context.function.blocks.length := by simp [compareZero]
      refine Function.Staged.enter ?_
      rw [← blocks]
      refine ((compared.newBlock "brif_next").addIncomings _ _).close (by rfl) ?_
      have target := inside branches.found
      simp only [Inst.targets, List.mem_cons, List.not_mem_nil, or_false, forall_eq_or_imp, forall_eq,
        Function.blocks_addIncomings, Function.blocks_length_newBlock, blocks]
      omega
  | @brTable _ _ value rest label labels top branches all =>
      rw [addTargets_getInsertBlock]
      refine addTargets_staged ?_ ?_ 0
      · refine (staged.addIncomings _ _).close (by rfl) ?_
        simpa [Inst.targets] using inside branches.found
      · intro other member
        obtain ⟨depth, _, reaches⟩ := Reaches.of_mem all member
        simpa [startTable, branchTo] using inside reaches.found

/-! ## Blocks -/

section Blocks

variable {context inner : BlockContext I.Op} {block : Nat} {pending : List Nat}
  {decl : BlockDeclaration} {types : List Ty}

theorem labels_mono {context' : BlockContext I.Op} (shaped : Shaped pending context)
    (grown : context.function.blocks.length ≤ context'.function.blocks.length) :
    ∀ label ∈ context.blockStack, 0 < label.target ∧ label.target < context'.function.blocks.length := by
  intro label member
  obtain ⟨low, high⟩ := shaped.labels label member
  exact ⟨low, Nat.lt_of_lt_of_le high grown⟩

theorem startBlock_shaped (here : context.At block) (shaped : Shaped pending context) :
    Shaped (context.function.blocks.length :: pending) (context.startBlock block decl types) := by
  have bound := here.bound
  refine ⟨?_, ?_⟩
  · exact ((shaped.at here).newBlock "blk_exit").appendPhis List.mem_cons_self (phiInsts_isPhi _ _)
  · intro label member
    rcases List.mem_cons.mp member with rfl | member
    · simp [exitLabel]
      omega
    · exact labels_mono shaped (by simp) label member

theorem startLoop_shaped (here : context.At block) (shaped : Shaped pending context) :
    Shaped pending (context.startLoop block decl types) := by
  have bound := here.bound
  refine ⟨?_, ?_⟩
  · refine Function.Staged.enter ?_
    have branched : ((context.function.newBlock "loop_entry").append block
        (.br context.function.blocks.length)).Staged (context.function.blocks.length :: pending) none :=
      ((shaped.at here).newBlock "loop_entry").close (by rfl) (by simp [Inst.targets]; omega)
    exact (branched.appendPhis List.mem_cons_self (paramInsts_isPhi _)).addIncomings _ _
  · intro label member
    rcases List.mem_cons.mp member with rfl | member
    · simp [loopLabel]
      omega
    · exact labels_mono shaped (by simp) label member

theorem startThen_shaped {value : Value} {rest : List Value} (here : context.At block)
    (shaped : Shaped pending context) :
    Shaped ((context.function.blocks.length + 1) :: (context.function.blocks.length + 2) :: pending)
      (context.startThen block value rest decl types) := by
  have bound := here.bound
  have blocks : (context.compareZero block value rest).function.blocks.length =
      context.function.blocks.length := by simp [compareZero]
  refine ⟨?_, ?_⟩
  · have compared : (context.compareZero block value rest).function.Staged pending (some block) :=
      (shaped.at here).appendPlains (by simp [Inst.isPlain])
    have created := ((compared.newBlock "ifblk").newBlock "elseblk").newBlock "ifblk_exit"
    simp only [Function.blocks_length_newBlock, blocks] at created
    have branched : (context.branchToArms block value rest).function.Staged
        ((context.function.blocks.length + 2) :: (context.function.blocks.length + 1) ::
          context.function.blocks.length :: pending) none := by
      refine created.close (by rfl) ?_
      simp [Inst.targets, blocks]
      omega
    have reordered := branched.perm ((List.reverse_perm [context.function.blocks.length,
      context.function.blocks.length + 1, context.function.blocks.length + 2]).append_right pending)
    exact reordered.enter.appendPhis (by simp) (phiInsts_isPhi _ _)
  · intro label member
    rcases List.mem_cons.mp member with rfl | member
    · simp [exitLabel]
    · exact labels_mono shaped (by simp) label member

end Blocks

/-- Every run keeps the invariant. -/
theorem Emits.shaped {context final : BlockContext I.Op} {exprs : List (Expr I.Instr)}
    {pending : List Nat} (emits : Emits I context exprs final) (shaped : Shaped pending context) :
    Shaped pending final := by
  induction emits generalizing pending with
  | nil => exact shaped
  | skipped nowhere => exact shaped
  | step here head tail ih => exact ih (head.shaped here shaped)
  | @block context inner _ block decl _ _ types here all run closable tail ihRun ihTail =>
      have inside := ihRun (startBlock_shaped here shaped)
      have top : inner.blockStack = context.blockLabel decl types :: context.blockStack := run.blockStack
      have goal := inside.labels _ (top ▸ List.mem_cons_self)
      refine ihTail ⟨(flowInto_staged _ (run.placed (.inr ⟨_, startBlock_at _ _ here⟩)) inside.staged
        goal).enter, ?_⟩
      intro label member
      rw [moveTo_function, leave_blocks_length]
      refine inside.labels label (List.mem_of_mem_tail ?_)
      simpa [leave] using member
  | loop here all enough run closable tail ihRun ihTail =>
      have inside := ihRun (startLoop_shaped here shaped)
      exact ihTail ⟨inside.staged, fun label member =>
        inside.labels label (List.mem_of_mem_tail member)⟩
  | @if_ context first second _ block value rest decl _ _ _ types here top enough all runTrue
      closableTrue runFalse closableFalse tail ihTrue ihFalse ihTail =>
      have insideTrue := ihTrue (startThen_shaped here shaped)
      have topTrue : first.blockStack = context.ifLabel block value rest decl types ::
        context.blockStack := runTrue.blockStack
      have leftTrue := flowInto_staged (context.ifLabel block value rest decl types).phis
        (runTrue.placed (.inr ⟨_, startThen_at _ _ _ _⟩))
        insideTrue.staged (insideTrue.labels _ (topTrue ▸ List.mem_cons_self))
      have entered : Shaped ((context.function.blocks.length + 2) :: pending)
          (first.startElse (context.ifLabel block value rest decl types)
            (context.function.blocks.length + 1) (rest.take decl.params.length)) := by
        refine ⟨leftTrue.enter, fun label member => ?_⟩
        rw [startElse_blocks_length]
        exact insideTrue.labels label (by simpa [startElse, leave] using member)
      have insideFalse := ihFalse entered
      have topFalse : second.blockStack = context.ifLabel block value rest decl types ::
        context.blockStack := runFalse.blockStack.trans (startElse_blockStack runTrue)
      refine ihTail ⟨(flowInto_staged _ (runFalse.placed (.inr ⟨_, startElse_placed runTrue⟩))
        insideFalse.staged (insideFalse.labels _ (topFalse ▸ List.mem_cons_self))).enter, ?_⟩
      intro label member
      rw [moveTo_function, leave_blocks_length]
      refine insideFalse.labels label (List.mem_of_mem_tail ?_)
      simpa [leave] using member

/-! ## Functions -/

theorem storage_isPlain {Op : Type} (entries : List (Ty × Value)) (next : Nat) :
    ∀ inst ∈ (storage next entries : List (Inst Op)), inst.isPlain := by
  induction entries generalizing next with
  | nil => simp [storage]
  | cons entry entries ih =>
      intro inst member
      rcases List.mem_cons.mp member with rfl | member
      · rfl
      · rcases List.mem_cons.mp member with rfl | member
        · rfl
        · exact ih (next + 2) inst member

theorem prologue_staged {Op : Type} (params locals : List Ty) :
    (prologue params locals : BlockContext Op).function.Staged [1] (some 0) := by
  have entered : ((Function.empty : Function Op).newBlock "allocator").Staged [] (some 0) :=
    (Function.staged_empty.newBlock "allocator").enter
  have stored : ∀ next, (((Function.empty.newBlock "allocator").appendAll 0
      (storage 0 (arguments 0 params))).appendAll 0 (storage next (zeros locals)) :
        Function Op).Staged [] (some 0) :=
    fun next => (entered.appendPlains (storage_isPlain _ _)).appendPlains (storage_isPlain _ _)
  have created := fun next => (stored next).newBlock "return"
  simp only [Function.blocks_length_appendAll, Function.blocks_length_newBlock] at created
  exact created _

theorem startFunc_shaped {Op : Type} (params locals results : List Ty) (decl : BlockDeclaration) :
    Shaped [1] (startFunc params locals results decl : BlockContext Op) := by
  refine ⟨(prologue_staged params locals).appendPhis (by simp) (phiInsts_isPhi _ _), ?_⟩
  intro label member
  obtain rfl := List.mem_singleton.mp member
  simp [exitLabel, startFunc, openLabel, prologue_blocks_length]

theorem enough_results {Op : Type} {params locals results : List Ty} {decl : BlockDeclaration}
    (all : Convert decl.results results) (inner : BlockContext Op) :
    decl.results.length ≤ ((inner.leave .func
      (funcLabel Op params locals results decl)).moveTo 1).stack.length := by
  simp [leave, funcLabel, exitLabel, all.length_eq]

theorem finish_function {Op : Type} {context : BlockContext Op} (block : Nat) {arity : Nat}
    (single : arity ≤ 1) (enough : arity ≤ context.stack.length) :
    ∃ value, (context.finish block arity).function = context.function.append block (.ret value) := by
  rcases arity with _ | arity
  · exact ⟨none, rfl⟩
  · obtain ⟨value, rest, top⟩ := List.exists_cons_of_length_pos
      (Nat.lt_of_lt_of_le (Nat.succ_pos _) enough)
    exact ⟨some value, by simp [finish, top]⟩

/-- Whatever the body of a function is, the blocks built for it are well-formed. -/
theorem visitFunc_wellFormed {func : Func I.Instr} {final : BlockContext I.Op}
    (built : visitFunc I func = .ok final) : final.function.WellFormed := by
  obtain @⟨params, locals, results, inner, paramsOk, localsOk, resultsOk, run, closable, single⟩ :=
    visitFunc_ok.mp built
  have inside := run.shaped (startFunc_shaped _ _ _ _)
  have top : inner.blockStack = [funcLabel I.Op params locals results func.decl] := run.blockStack
  have goal := inside.labels _ (top ▸ List.mem_cons_self)
  have left := (flowInto_staged (funcLabel I.Op params locals results func.decl).phis
    (run.placed (.inr ⟨0, startFunc_at _ _ _ _⟩)) inside.staged goal).enter
  obtain ⟨value, returned⟩ := finish_function 1 single (enough_results resultsOk _)
  rw [returned]
  exact (left.close (by rfl) (by simp [Inst.targets])).wellFormed

/-- A loop that is left from inside a conditional, with code behind a branch. -/
def leaveLoop : Func controlOnly.Instr where
  decl := ⟨[.i32], [.i32]⟩
  localTypes := []
  exprs := [.block ⟨[], []⟩ [.loop ⟨[], []⟩ [.localGet 0, .if_ ⟨[], []⟩ [.br 2, .nop] [], .br 0]],
    .localGet 0]

theorem visitFunc_wellFormed_leaveLoop :
    ∃ final, visitFunc controlOnly leaveLoop = .ok final ∧ final.function.WellFormed := by
  obtain ⟨final, built⟩ := visitFunc_completes
    (show (visitFunc controlOnly leaveLoop).isOk from by decide +kernel)
  exact ⟨final, built, visitFunc_wellFormed built⟩

end WasmToLlvm.Block
