import WasmToLlvm.Block.Labels
import WasmToLlvm.Llvm.Growth

/-!
# Runs of the control-flow translation

`Emits` describes the successful runs of `visitControlInsts`: the states before
and after each expression and inside each nested body. The invariants of the
translation are inductions on it.
-/

set_option autoImplicit false

namespace WasmToLlvm.Block

open Llvm Wasm Library BlockContext

variable {I : InstructionSet}

/-- The visit of an expression that does not transfer control. -/
def straightVisit (I : InstructionSet) : Expr I.Instr → Option (Visit I.Op Unit)
  | .nop => some (pure ())
  | .drop => some (do let _ ← Visit.popStack)
  | .select _ => some visitSelectExpr
  | .localGet index => some (visitLocalGet index)
  | .localSet index => some (visitLocalSet index)
  | .localTee index => some (visitLocalTee index)
  | .instr instr => some (I.visit instr)
  | _ => none

namespace BlockContext

variable {Op : Type}

/-- The condition on top of the stack is compared with zero. -/
def compareZero (context : BlockContext Op) (block : Nat) (value : Value) (rest : List Value) :
    BlockContext Op :=
  (context.withStack rest).emit block (.plain (.icmp .ne value (.null value.type)))

/-- The result of that comparison. -/
def compared (context : BlockContext Op) (value : Value) : Value :=
  .inst context.function.insts.length value.type.comparison

/-- The label of a `block`. -/
def blockLabel (context : BlockContext Op) (decl : BlockDeclaration) (types : List Ty) :
    BreakoutTarget :=
  context.exitLabel .block context.function.blocks.length decl types

def startBlock (context : BlockContext Op) (block : Nat) (decl : BlockDeclaration)
    (types : List Ty) : BlockContext Op :=
  (context.newBlock "blk_exit").openLabel .block block context.function.blocks.length decl types

/-- The branch into a loop. -/
def branchToLoop (context : BlockContext Op) (block : Nat) (decl : BlockDeclaration) :
    BlockContext Op :=
  let entry := context.function.blocks.length
  ((((context.newBlock "loop_entry").addEdge .loopEntry block entry
    (carriedValues context.stack decl.params.length)).emit block (.br entry)).moveTo entry)

def startLoop (context : BlockContext Op) (block : Nat) (decl : BlockDeclaration)
    (types : List Ty) : BlockContext Op :=
  (context.branchToLoop block decl).openLoop context.function.blocks.length decl types

/-- The branch of a conditional to its two arms. -/
def branchToArms (context : BlockContext Op) (block : Nat) (value : Value)
    (rest : List Value) : BlockContext Op :=
  let first := context.function.blocks.length
  ((((((context.compareZero block value rest).newBlock "ifblk").newBlock "elseblk").newBlock
    "ifblk_exit").addEdge .arm block first []).addEdge .arm block (first + 1) []).emit block
      (.condBr (context.compared value) first (first + 1))

/-- The label of a conditional. -/
def ifLabel (context : BlockContext Op) (block : Nat) (value : Value) (rest : List Value)
    (decl : BlockDeclaration) (types : List Ty) : BreakoutTarget :=
  (context.branchToArms block value rest).exitLabel .if_ (context.function.blocks.length + 2) decl
    types

def startThen (context : BlockContext Op) (block : Nat) (value : Value) (rest : List Value)
    (decl : BlockDeclaration) (types : List Ty) : BlockContext Op :=
  let first := context.function.blocks.length
  ((context.branchToArms block value rest).moveTo first).openLabel .if_ first (first + 2) decl types

/-- The parameters are duplicated for the second arm. -/
def startElse (context : BlockContext Op) (label : BreakoutTarget) (elseBlock : Nat)
    (params : List Value) : BlockContext Op :=
  let left := context.leave .if_ label
  (left.withStack (params ++ left.stack)).moveTo elseBlock

/-- A conditional branch goes to its label or to a new block. -/
def branchOrNext (context : BlockContext Op) (block : Nat) (value : Value) (rest : List Value)
    (label : BreakoutTarget) : BlockContext Op :=
  let next := context.function.blocks.length
  (((((context.compareZero block value rest).newBlock "brif_next").branchTo block label).addEdge .arm
    block next []).emit block (.condBr (context.compared value) label.target next)).moveTo next

/-- A `br_table` with its default, before its other targets. -/
def startTable (context : BlockContext Op) (block : Nat) (value : Value) (rest : List Value)
    (label : BreakoutTarget) : BlockContext Op :=
  (((context.withStack rest).branchTo block label).emit block (.switch value label.target)).clear

end BlockContext

/-- Expressions that contain no others. -/
def isBodyless : Expr I.Instr → Bool
  | .block _ _ | .loop _ _ | .if_ _ _ _ => false
  | _ => true

/-- The block that `entry` names after an expression without a body. -/
def stepEntry (context : BlockContext I.Op) (block : Nat) : Expr I.Instr → Nat
  | .brIf _ => context.function.blocks.length
  | _ => block

/-- An expression without a body, at the end of a block. -/
inductive Step (I : InstructionSet) :
    BlockContext I.Op → Nat → Expr I.Instr → BlockContext I.Op → Prop where
  | straight {context : BlockContext I.Op} {block : Nat} {expr : Expr I.Instr}
      {visit : Visit I.Op Unit} {after : Straight I.Op} (code : straightVisit I expr = some visit)
      (ran : visit (visitStart context) = .ok ((), after)) :
      Step I context block expr (context.afterVisit block after)
  | unreachable {context : BlockContext I.Op} {block : Nat} :
      Step I context block .unreachable (context.emit block .unreachable).clear
  | br {context : BlockContext I.Op} {block depth : Nat} {label : BreakoutTarget}
      (branches : Branches context depth label) :
      Step I context block (.br depth)
        ((context.branchTo block label).emit block (.br label.target)).clear
  | return_ {context : BlockContext I.Op} {block depth : Nat} {label : BreakoutTarget}
      (outermost : depth + 1 = context.blockStack.length)
      (branches : Branches context depth label) :
      Step I context block .return_
        ((context.branchTo block label).emit block (.br label.target)).clear
  | brIf {context : BlockContext I.Op} {block depth : Nat} {value : Value} {rest : List Value}
      {label : BreakoutTarget} (top : context.stack = value :: rest)
      (branches : Branches (context.withStack rest) depth label) :
      Step I context block (.brIf depth) (context.branchOrNext block value rest label)
  | brTable {context : BlockContext I.Op} {block default : Nat} {targets : List Nat} {value : Value}
      {rest : List Value} {label : BreakoutTarget} {labels : List BreakoutTarget}
      (top : context.stack = value :: rest)
      (branches : Branches (context.withStack rest) default label)
      (all : List.Forall₂ (Reaches (context.withStack rest)) targets labels) :
      Step I context block (.brTable targets default)
        ((context.startTable block value rest label).addTargets context.function.insts.length block
          labels 0)

/-- A successful run of `visitControlInsts`. -/
inductive Emits (I : InstructionSet) :
    BlockContext I.Op → List (Expr I.Instr) → BlockContext I.Op → Prop where
  | nil {context : BlockContext I.Op} : Emits I context [] context
  | skipped {context : BlockContext I.Op} {exprs : List (Expr I.Instr)}
      (nowhere : context.insertPoint = none) : Emits I context exprs context
  | step {context next final : BlockContext I.Op} {block : Nat} {expr : Expr I.Instr}
      {exprs : List (Expr I.Instr)} (here : context.At block) (head : Step I context block expr next)
      (tail : Emits I next exprs final) : Emits I context (expr :: exprs) final
  | block {context inner final : BlockContext I.Op} {block : Nat} {decl : BlockDeclaration}
      {body exprs : List (Expr I.Instr)} {types : List Ty} (here : context.At block)
      (all : Convert decl.results types)
      (run : Emits I (context.startBlock block decl types) body inner)
      (closable : Closable inner (context.blockLabel decl types).pos decl.results.length)
      (tail : Emits I ((inner.leave .block (context.blockLabel decl types)).moveTo
        context.function.blocks.length) exprs final) :
      Emits I context (.block decl body :: exprs) final
  | loop {context inner final : BlockContext I.Op} {block : Nat} {decl : BlockDeclaration}
      {body exprs : List (Expr I.Instr)} {types : List Ty} (here : context.At block)
      (all : Convert decl.params.reverse types)
      (enough : decl.params.length ≤ context.stack.length)
      (run : Emits I (context.startLoop block decl types) body inner)
      (closable : inner.insertPoint ≠ none →
        (inner.stack.length : Int) = labelPos .loop context.stack decl + decl.results.length ∧
          decl.params.length ≤ inner.stack.length)
      (tail : Emits I (inner.withLabels inner.blockStack.tail) exprs final) :
      Emits I context (.loop decl body :: exprs) final
  | if_ {context first second final : BlockContext I.Op} {block : Nat} {value : Value}
      {rest : List Value} {decl : BlockDeclaration} {trueExprs falseExprs exprs : List (Expr I.Instr)}
      {types : List Ty} (here : context.At block) (top : context.stack = value :: rest)
      (enough : decl.params.length ≤ rest.length) (all : Convert decl.results types)
      (runTrue : Emits I (context.startThen block value rest decl types) trueExprs first)
      (closableTrue : Closable first (context.ifLabel block value rest decl types).pos
        decl.results.length)
      (runFalse : Emits I (first.startElse (context.ifLabel block value rest decl types)
        (context.function.blocks.length + 1) (rest.take decl.params.length)) falseExprs second)
      (closableFalse : Closable second (context.ifLabel block value rest decl types).pos
        decl.results.length)
      (tail : Emits I ((second.leave .else_ (context.ifLabel block value rest decl types)).moveTo
        (context.function.blocks.length + 2)) exprs final) :
      Emits I context (.if_ decl trueExprs falseExprs :: exprs) final

/-! ## What a run leaves alone -/

namespace BlockContext

variable {Op : Type} (context : BlockContext Op) (block : Nat) (decl : BlockDeclaration)
  (types : List Ty) (value : Value) (rest : List Value) (label : BreakoutTarget)

@[simp] theorem addTargets_blockStack (switch source i : Nat) (labels : List BreakoutTarget) :
    (context.addTargets switch source labels i).blockStack = context.blockStack := by
  induction labels generalizing context i with
  | nil => rfl
  | cons label labels ih => exact ih (context.addTarget switch source i label) (i + 1)

@[simp] theorem addTargets_locals (switch source i : Nat) (labels : List BreakoutTarget) :
    (context.addTargets switch source labels i).locals = context.locals := by
  induction labels generalizing context i with
  | nil => rfl
  | cons label labels ih => exact ih (context.addTarget switch source i label) (i + 1)

@[simp] theorem addTargets_insertPoint (switch source i : Nat) (labels : List BreakoutTarget) :
    (context.addTargets switch source labels i).insertPoint = context.insertPoint := by
  induction labels generalizing context i with
  | nil => rfl
  | cons label labels ih => exact ih (context.addTarget switch source i label) (i + 1)

@[simp] theorem addTargets_stack (switch source i : Nat) (labels : List BreakoutTarget) :
    (context.addTargets switch source labels i).stack = context.stack := by
  induction labels generalizing context i with
  | nil => rfl
  | cons label labels ih => exact ih (context.addTarget switch source i label) (i + 1)

@[simp] theorem flowInto_blockStack (exit : Nat) (phis : List PHINode) :
    (context.flowInto exit phis).blockStack = context.blockStack := by
  rw [flowInto]
  cases context.getInsertBlock <;> rfl

@[simp] theorem flowInto_locals (exit : Nat) (phis : List PHINode) :
    (context.flowInto exit phis).locals = context.locals := by
  rw [flowInto]
  cases context.getInsertBlock <;> rfl

@[simp] theorem leave_locals (lty : LabelType) : (context.leave lty label).locals = context.locals := by
  simp [leave]

@[simp] theorem flowInto_blocks_length (exit : Nat) (phis : List PHINode) :
    (context.flowInto exit phis).function.blocks.length = context.function.blocks.length := by
  rw [flowInto]
  cases context.getInsertBlock <;> simp

theorem leave_blocks_length (lty : LabelType) :
    (context.leave lty label).function.blocks.length = context.function.blocks.length := by
  simp [leave]

@[simp] theorem addTargets_blocks_length (switch source i : Nat) (labels : List BreakoutTarget) :
    (context.addTargets switch source labels i).function.blocks.length =
      context.function.blocks.length := by
  induction labels generalizing context i with
  | nil => rfl
  | cons label labels ih => exact ih (context.addTarget switch source i label) (i + 1)

@[simp] theorem startBlock_blocks_length :
    (context.startBlock block decl types).function.blocks.length =
      context.function.blocks.length + 1 := by
  simp [startBlock, openLabel]

@[simp] theorem startLoop_blocks_length :
    (context.startLoop block decl types).function.blocks.length =
      context.function.blocks.length + 1 := by
  simp [startLoop, openLoop, openParams, branchToLoop]

@[simp] theorem branchToArms_blocks_length :
    (context.branchToArms block value rest).function.blocks.length =
      context.function.blocks.length + 3 := by
  simp [branchToArms, compareZero]

@[simp] theorem startThen_blocks_length :
    (context.startThen block value rest decl types).function.blocks.length =
      context.function.blocks.length + 3 := by
  simp [startThen, openLabel]

@[simp] theorem startElse_blocks_length (elseBlock : Nat) (params : List Value) :
    (context.startElse label elseBlock params).function.blocks.length =
      context.function.blocks.length := by
  simp [startElse, leave]

@[simp] theorem branchOrNext_blocks_length :
    (context.branchOrNext block value rest label).function.blocks.length =
      context.function.blocks.length + 1 := by
  simp [branchOrNext, branchTo, compareZero]

variable {context block}

theorem startBlock_at (here : context.At block) : (context.startBlock block decl types).At block := by
  refine ⟨rfl, ?_⟩
  rw [startBlock_blocks_length]
  exact Nat.lt_succ_of_lt here.bound

theorem startLoop_at :
    (context.startLoop block decl types).At context.function.blocks.length := by
  refine ⟨rfl, ?_⟩
  rw [startLoop_blocks_length]
  exact Nat.lt_succ_self _

theorem startThen_at :
    (context.startThen block value rest decl types).At context.function.blocks.length := by
  refine ⟨rfl, ?_⟩
  rw [startThen_blocks_length]
  omega

theorem startElse_at {elseBlock : Nat} (params : List Value)
    (bound : elseBlock < context.function.blocks.length) :
    (context.startElse label elseBlock params).At elseBlock := by
  refine ⟨rfl, ?_⟩
  rw [startElse_blocks_length]
  exact bound

theorem branchOrNext_at :
    (context.branchOrNext block value rest label).At context.function.blocks.length := by
  refine ⟨rfl, ?_⟩
  rw [branchOrNext_blocks_length]
  exact Nat.lt_succ_self _

end BlockContext

theorem Step.blockStack {context next : BlockContext I.Op} {block : Nat} {expr : Expr I.Instr}
    (step : Step I context block expr next) : next.blockStack = context.blockStack := by
  cases step with
  | straight _ _ => rfl
  | unreachable => rfl
  | br _ => rfl
  | return_ _ _ => rfl
  | brIf _ _ => rfl
  | brTable _ _ _ => exact addTargets_blockStack _ _ _ _ _

theorem Step.locals {context next : BlockContext I.Op} {block : Nat} {expr : Expr I.Instr}
    (step : Step I context block expr next) : next.locals = context.locals := by
  cases step with
  | straight _ _ => rfl
  | unreachable => rfl
  | br _ => rfl
  | return_ _ _ => rfl
  | brIf _ _ => rfl
  | brTable _ _ _ => exact addTargets_locals _ _ _ _ _

theorem Emits.blockStack {context final : BlockContext I.Op} {exprs : List (Expr I.Instr)}
    (emits : Emits I context exprs final) : final.blockStack = context.blockStack := by
  induction emits with
  | nil => rfl
  | skipped nowhere => rfl
  | step here head tail ih => exact ih.trans head.blockStack
  | block here all run closable tail ihRun ihTail =>
      refine ihTail.trans ?_
      simp [leave, ihRun, startBlock, openLabel]
  | loop here all enough run closable tail ihRun ihTail =>
      refine ihTail.trans ?_
      simp [ihRun, startLoop, openLoop, branchToLoop]
  | if_ here top enough all runTrue closableTrue runFalse closableFalse tail ihTrue ihFalse ihTail =>
      refine ihTail.trans ?_
      simp [leave, ihFalse, startElse, ihTrue, startThen, openLabel, branchToArms, compareZero]

theorem Emits.locals {context final : BlockContext I.Op} {exprs : List (Expr I.Instr)}
    (emits : Emits I context exprs final) : final.locals = context.locals := by
  induction emits with
  | nil => rfl
  | skipped nowhere => rfl
  | step here head tail ih => exact ih.trans head.locals
  | block here all run closable tail ihRun ihTail =>
      refine ihTail.trans ?_
      simp [ihRun, startBlock, openLabel]
  | loop here all enough run closable tail ihRun ihTail =>
      refine ihTail.trans ?_
      simp [ihRun, startLoop, openLoop, openParams, branchToLoop]
  | if_ here top enough all runTrue closableTrue runFalse closableFalse tail ihTrue ihFalse ihTail =>
      refine ihTail.trans ?_
      simp [ihFalse, startElse, ihTrue, startThen, openLabel, branchToArms, compareZero]

theorem Step.blocks_le {context next : BlockContext I.Op} {block : Nat} {expr : Expr I.Instr}
    (step : Step I context block expr next) :
    context.function.blocks.length ≤ next.function.blocks.length := by
  cases step with
  | straight _ _ => simp [afterVisit]
  | unreachable => simp
  | br _ => simp [branchTo]
  | return_ _ _ => simp [branchTo]
  | brIf _ _ => simp
  | brTable _ _ _ => simp [startTable, branchTo]

/-- Blocks are never removed. -/
theorem Emits.blocks_le {context final : BlockContext I.Op} {exprs : List (Expr I.Instr)}
    (emits : Emits I context exprs final) :
    context.function.blocks.length ≤ final.function.blocks.length := by
  induction emits with
  | nil => exact Nat.le_refl _
  | skipped nowhere => exact Nat.le_refl _
  | step here head tail ih => exact Nat.le_trans head.blocks_le ih
  | block here all run closable tail ihRun ihTail =>
      simp only [startBlock_blocks_length] at ihRun
      simp only [moveTo_function, leave_blocks_length] at ihTail
      omega
  | loop here all enough run closable tail ihRun ihTail =>
      simp only [startLoop_blocks_length] at ihRun
      simp only [withLabels_function] at ihTail
      omega
  | if_ here top enough all runTrue closableTrue runFalse closableFalse tail ihTrue ihFalse ihTail =>
      simp only [startThen_blocks_length] at ihTrue
      simp only [startElse_blocks_length] at ihFalse
      simp only [moveTo_function, leave_blocks_length] at ihTail
      omega

/-! ## The insertion point -/

theorem Step.synced {context next : BlockContext I.Op} {block : Nat} {expr : Expr I.Instr}
    (here : context.At block) (step : Step I context block expr next) :
    next.insertPoint = none ∨ next.At (stepEntry context block expr) := by
  cases step with
  | straight code _ =>
      right
      have same : stepEntry context block expr = block := by
        cases expr <;> first | rfl | cases code
      rw [same]
      exact ⟨rfl, by simpa [afterVisit] using here.bound⟩
  | unreachable => exact .inl rfl
  | br _ => exact .inl rfl
  | return_ _ _ => exact .inl rfl
  | brIf _ _ => exact .inr (branchOrNext_at _ _ _)
  | brTable _ _ _ => exact .inl (by simp [startTable])

theorem Step.bodyless {context next : BlockContext I.Op} {block : Nat} {expr : Expr I.Instr}
    (step : Step I context block expr next) : isBodyless expr := by
  cases step with
  | straight code _ => cases expr <;> first | rfl | cases code
  | _ => rfl

theorem Step.placed {context next : BlockContext I.Op} {block : Nat} {expr : Expr I.Instr}
    (here : context.At block) (step : Step I context block expr next) : next.Placed :=
  (step.synced here).imp_right fun there => ⟨_, there⟩

theorem Emits.placed {context final : BlockContext I.Op} {exprs : List (Expr I.Instr)}
    (emits : Emits I context exprs final) (placed : context.Placed) : final.Placed := by
  induction emits with
  | nil => exact placed
  | skipped nowhere => exact placed
  | step here head tail ih => exact ih (head.placed here)
  | block here all run closable tail ihRun ihTail =>
      refine ihTail (.inr ⟨_, moveTo_at ?_⟩)
      have grown := run.blocks_le
      rw [startBlock_blocks_length] at grown
      rw [leave_blocks_length]
      omega
  | loop here all enough run closable tail ihRun ihTail =>
      refine ihTail ?_
      rcases ihRun (.inr ⟨_, startLoop_at _ _⟩) with nowhere | ⟨_, there⟩
      · exact .inl nowhere
      · exact .inr ⟨_, there.withLabels _⟩
  | if_ here top enough all runTrue closableTrue runFalse closableFalse tail ihTrue ihFalse ihTail =>
      refine ihTail (.inr ⟨_, moveTo_at ?_⟩)
      have grown := runTrue.blocks_le
      have grownFalse := runFalse.blocks_le
      rw [startThen_blocks_length] at grown
      rw [startElse_blocks_length] at grownFalse
      rw [leave_blocks_length]
      omega

/-! ## Growth -/

section Growth

variable {Op : Type} {function : Function Op} {context : BlockContext Op}

theorem addTargets_grows (grows : function.Grows context.function) (switch source i : Nat)
    (labels : List BreakoutTarget) :
    function.Grows (context.addTargets switch source labels i).function := by
  induction labels generalizing context i with
  | nil => exact grows
  | cons label labels ih => exact ih ((grows.addCase _ _ _).addIncomings _ _) (i + 1)

theorem flowInto_grows (grows : function.Grows context.function) (exit : Nat) (phis : List PHINode) :
    function.Grows (context.flowInto exit phis).function := by
  rw [flowInto]
  cases context.getInsertBlock with
  | none => exact grows
  | some block => exact (grows.addIncomings _ _).append _ _

theorem branchToArms_grows (grows : function.Grows context.function) (block : Nat) (value : Value)
    (rest : List Value) : function.Grows (context.branchToArms block value rest).function :=
  ((((grows.append _ _).newBlock _).newBlock _).newBlock _).append _ _

theorem startBlock_grows (grows : function.Grows context.function) (block : Nat)
    (decl : BlockDeclaration) (types : List Ty) :
    function.Grows (context.startBlock block decl types).function :=
  (grows.newBlock _).appendAll _ _

theorem startLoop_grows (grows : function.Grows context.function) (block : Nat)
    (decl : BlockDeclaration) (types : List Ty) :
    function.Grows (context.startLoop block decl types).function :=
  (((grows.newBlock _).append _ _).appendAll _ _).addIncomings _ _

theorem startThen_grows (grows : function.Grows context.function) (block : Nat) (value : Value)
    (rest : List Value) (decl : BlockDeclaration) (types : List Ty) :
    function.Grows (context.startThen block value rest decl types).function :=
  (branchToArms_grows grows block value rest).appendAll _ _

end Growth

theorem Step.grows {context next : BlockContext I.Op} {block : Nat} {expr : Expr I.Instr}
    {function : Function I.Op} (step : Step I context block expr next)
    (grows : function.Grows context.function) : function.Grows next.function := by
  cases step with
  | straight _ _ => exact grows.appendAll _ _
  | unreachable => exact grows.append _ _
  | br _ => exact (grows.addIncomings _ _).append _ _
  | return_ _ _ => exact (grows.addIncomings _ _).append _ _
  | brIf _ _ => exact (((grows.append _ _).newBlock _).addIncomings _ _).append _ _
  | brTable _ _ _ => exact addTargets_grows ((grows.addIncomings _ _).append _ _) _ _ _ _

/-- Nothing that is built is removed or changed. -/
theorem Emits.grows {context final : BlockContext I.Op} {exprs : List (Expr I.Instr)}
    {function : Function I.Op} (emits : Emits I context exprs final)
    (grows : function.Grows context.function) : function.Grows final.function := by
  induction emits with
  | nil => exact grows
  | skipped nowhere => exact grows
  | step here head tail ih => exact ih (head.grows grows)
  | block here all run closable tail ihRun ihTail =>
      exact ihTail (flowInto_grows (ihRun (startBlock_grows grows _ _ _)) _ _)
  | loop here all enough run closable tail ihRun ihTail =>
      exact ihTail (ihRun (startLoop_grows grows _ _ _))
  | if_ here top enough all runTrue closableTrue runFalse closableFalse tail ihTrue ihFalse ihTail =>
      have first := flowInto_grows (ihTrue (startThen_grows grows _ _ _ _ _))
      exact ihTail (flowInto_grows (ihFalse (first _ _)) _ _)

/-! ## Where a run ends -/

theorem Step.nowhere_iff {context next : BlockContext I.Op} {block : Nat} {expr : Expr I.Instr}
    (step : Step I context block expr next) : next.insertPoint = none ↔ expr.diverges := by
  cases step with
  | straight code _ => cases expr <;> first | cases code; done | simp [Expr.diverges, afterVisit]
  | unreachable => simp [Expr.diverges]
  | br _ => simp [Expr.diverges]
  | return_ _ _ => simp [Expr.diverges]
  | brIf _ _ => simp [Expr.diverges, branchOrNext]
  | brTable _ _ _ => simp [Expr.diverges, startTable]

/-- The end of a body is unreachable exactly behind an unconditional transfer. -/
theorem Emits.nowhere_iff {context final : BlockContext I.Op} {exprs : List (Expr I.Instr)}
    (emits : Emits I context exprs final) :
    final.insertPoint = none ↔ context.insertPoint = none ∨ ExprList.diverges exprs := by
  induction emits with
  | nil => simp [ExprList.diverges]
  | skipped nowhere => simp [nowhere]
  | step here head tail ih =>
      rw [ih, head.nowhere_iff, ExprList.diverges]
      simp [here.reachable]
  | block here all run closable tail ihRun ihTail =>
      rw [ihTail, ExprList.diverges, Expr.diverges]
      simp [here.reachable]
  | @loop context _ _ block decl _ _ types here all enough run closable tail ihRun ihTail =>
      have entered : (context.startLoop block decl types).insertPoint ≠ none :=
        (startLoop_at _ _).reachable
      simp only [entered, false_or] at ihRun
      rw [ihTail, withLabels_insertPoint, ihRun, ExprList.diverges, Expr.diverges]
      simp [here.reachable]
  | if_ here top enough all runTrue closableTrue runFalse closableFalse tail ihTrue ihFalse ihTail =>
      rw [ihTail, ExprList.diverges, Expr.diverges]
      simp [here.reachable]

end WasmToLlvm.Block
