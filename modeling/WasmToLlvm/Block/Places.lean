import WasmToLlvm.Block.Visit

/-!
# The places of a visit

`visitExpr` and `visitFunc` up to the bodies of constructs, and the expressions that are
visited with the constructs around them.
-/

set_option autoImplicit false

namespace WasmToLlvm.Block

open Llvm Wasm Library

/-! ## Constructs before their bodies -/

section Open

variable {Op : Type}

/-- A `block` up to its body. -/
def beginBlock (entry : Option Nat) (decl : BlockDeclaration) : Build Op (Nat × Int × List PHINode) := do
  let exitBlock ← createBlock "blk_exit"
  let (stackPos, phis) ← enterBlock .block entry exitBlock decl
  return (exitBlock, stackPos, phis)

/-- A `loop` up to its body. -/
def beginLoop (exit : Nat) (decl : BlockDeclaration) : Build Op (Nat × Int × List PHINode) := do
  let entryBlock ← createBlock "loop_entry"
  let context ← get
  addEdge .loopEntry context.getInsertBlock entryBlock (carriedValues context.stack decl.params.length)
  let _ ← insert (.br entryBlock)
  setInsertPoint (some entryBlock)
  let (stackPos, phis) ← enterBlock .loop (some entryBlock) exit decl
  return (entryBlock, stackPos, phis)

/-- The blocks of a conditional and the values of its parameters. -/
structure ArmBlocks where
  ifBlock : Nat
  elseBlock : Nat
  exitBlock : Nat
  params : List Value

/-- A conditional up to its branch. -/
def branchArms (decl : BlockDeclaration) : Build Op ArmBlocks := do
  let condition ← popStack
  let context ← get
  if context.stack.length < decl.params.length then
    throw .assertion
  let params := context.stack.take decl.params.length
  let condition ← createICmpNE condition
  let ifBlock ← createBlock "ifblk"
  let elseBlock ← createBlock "elseblk"
  let exitBlock ← createBlock "ifblk_exit"
  addEdge .arm context.getInsertBlock ifBlock []
  addEdge .arm context.getInsertBlock elseBlock []
  let _ ← insert (.condBr condition ifBlock elseBlock)
  return ⟨ifBlock, elseBlock, exitBlock, params⟩

/-- A conditional up to its first body. -/
def beginThen (decl : BlockDeclaration) : Build Op (ArmBlocks × Int × List PHINode) := do
  let arms ← branchArms decl
  setInsertPoint (some arms.ifBlock)
  let (stackPos, phis) ← enterBlock .if_ (some arms.ifBlock) arms.exitBlock decl
  return (arms, stackPos, phis)

end Open

variable (I : InstructionSet)

/-- A conditional up to its second body. -/
def beginElse (decl : BlockDeclaration) (trueExprs : List (Expr I.Instr)) :
    Build I.Op (ArmBlocks × Int × List PHINode) := do
  let (arms, stackPos, phis) ← beginThen decl
  visitControlInsts I arms.exitBlock trueExprs (some arms.ifBlock)
  leaveBlock .if_ arms.exitBlock decl stackPos phis
  modify fun context => { context with stack := arms.params ++ context.stack }
  setInsertPoint (some arms.elseBlock)
  let (stackPos, phis) ← enterBlock .else_ (some arms.elseBlock) arms.exitBlock decl
  return (arms, stackPos, phis)

/-- A function up to its body. -/
def beginFunc (func : Func I.Instr) : Build I.Op (Nat × Nat × Int × List PHINode) := do
  let allocaBlock ← createBlock "allocator"
  setInsertPoint (some allocaBlock)
  visitParams func.decl.params 0
  visitLocals func.localTypes
  let returnBlock ← createBlock "return"
  let (stackPos, phis) ← enterBlock .func (some allocaBlock) returnBlock func.decl
  return (allocaBlock, returnBlock, stackPos, phis)

section Equations

variable {entry : Option Nat} {exit : Nat} {decl : BlockDeclaration} {exprs other : List (Expr I.Instr)}

theorem visitExpr_block_eq : visitExpr I entry exit (.block decl exprs) = (do
    let (exitBlock, stackPos, phis) ← beginBlock entry decl
    visitControlInsts I exitBlock exprs entry
    leaveBlock .block exitBlock decl stackPos phis
    setInsertPoint (some exitBlock)
    return some exitBlock) := by
  simp only [visitExpr, beginBlock, visitBlock, bind_assoc, pure_bind]

theorem visitExpr_loop_eq : visitExpr I entry exit (.loop decl exprs) = (do
    let (entryBlock, stackPos, phis) ← beginLoop exit decl
    visitControlInsts I exit exprs (some entryBlock)
    leaveBlock .loop exit decl stackPos phis
    let context ← get
    return context.getInsertBlock) := by
  simp only [visitExpr, beginLoop, visitBlock, bind_assoc, pure_bind]

theorem visitExpr_if_eq : visitExpr I entry exit (.if_ decl exprs other) = (do
    let (arms, stackPos, phis) ← beginElse I decl exprs
    visitControlInsts I arms.exitBlock other (some arms.elseBlock)
    leaveBlock .else_ arms.exitBlock decl stackPos phis
    setInsertPoint (some arms.exitBlock)
    return some arms.exitBlock) := by
  simp only [visitExpr, beginElse, beginThen, branchArms, visitBlock, bind_assoc, pure_bind]
  refine congrArg _ (funext fun condition => congrArg _ (funext fun context => ?_))
  split
  · rfl
  · rfl

theorem visitFuncBody_eq (func : Func I.Instr) : visitFuncBody I func = (do
    let (allocaBlock, returnBlock, stackPos, phis) ← beginFunc I func
    visitControlInsts I returnBlock func.exprs (some allocaBlock)
    leaveBlock .func returnBlock func.decl stackPos phis
    setInsertPoint (some returnBlock)
    createReturn func.decl.results) := by
  simp only [visitFuncBody, beginFunc, visitBlock, bind_assoc, pure_bind]

end Equations

/-! ## Places -/

/-- A construct around an expression: the block that its label branches to and the height
of the symbolic stack below its parameters. -/
structure Frame where
  lty : LabelType
  decl : BlockDeclaration
  target : Nat
  base : Nat

/-- The types of the values that a branch to the label carries. -/
def Frame.types (frame : Frame) : List ValType :=
  if frame.lty = .loop then frame.decl.params else frame.decl.results

/-- An expression that is visited, with the arguments of the visit and the constructs
around the expression, the innermost first. -/
structure Place where
  context : BlockContext I.Op
  entry : Option Nat
  exit : Nat
  expr : Expr I.Instr
  frames : List Frame

/-- The expressions that are visited by a visit of a body. -/
inductive Visits : BlockContext I.Op → Option Nat → Nat → List (Expr I.Instr) → List Frame → Place I → Prop where
  | here {context : BlockContext I.Op} {entry : Option Nat} {exit : Nat} {expr : Expr I.Instr}
      {exprs : List (Expr I.Instr)} {frames : List Frame} (reachable : context.getInsertBlock ≠ none) :
      Visits context entry exit (expr :: exprs) frames ⟨context, entry, exit, expr, frames⟩
  | behind {context next : BlockContext I.Op} {entry entry' : Option Nat} {exit : Nat} {expr : Expr I.Instr}
      {exprs : List (Expr I.Instr)} {frames : List Frame} {place : Place I}
      (reachable : context.getInsertBlock ≠ none)
      (ran : visitExpr I entry exit expr context = .ok (entry', next))
      (visits : Visits next entry' exit exprs frames place) : Visits context entry exit (expr :: exprs) frames place
  | block {context opened : BlockContext I.Op} {entry : Option Nat} {exit exitBlock : Nat} {decl : BlockDeclaration}
      {body exprs : List (Expr I.Instr)} {frames : List Frame} {place : Place I} {stackPos : Int}
      {phis : List PHINode} (reachable : context.getInsertBlock ≠ none)
      (opens : beginBlock entry decl context = .ok ((exitBlock, stackPos, phis), opened))
      (visits : Visits opened entry exitBlock body
        (⟨.block, decl, exitBlock, context.stack.length - decl.params.length⟩ :: frames) place) :
      Visits context entry exit (.block decl body :: exprs) frames place
  | loop {context opened : BlockContext I.Op} {entry : Option Nat} {exit entryBlock : Nat} {decl : BlockDeclaration}
      {body exprs : List (Expr I.Instr)} {frames : List Frame} {place : Place I} {stackPos : Int}
      {phis : List PHINode} (reachable : context.getInsertBlock ≠ none)
      (opens : beginLoop exit decl context = .ok ((entryBlock, stackPos, phis), opened))
      (visits : Visits opened (some entryBlock) exit body
        (⟨.loop, decl, entryBlock, context.stack.length - decl.params.length⟩ :: frames) place) :
      Visits context entry exit (.loop decl body :: exprs) frames place
  | then_ {context opened : BlockContext I.Op} {entry : Option Nat} {exit : Nat} {arms : ArmBlocks}
      {decl : BlockDeclaration} {trueExprs falseExprs exprs : List (Expr I.Instr)} {frames : List Frame}
      {place : Place I} {stackPos : Int} {phis : List PHINode} (reachable : context.getInsertBlock ≠ none)
      (opens : beginThen decl context = .ok ((arms, stackPos, phis), opened))
      (visits : Visits opened (some arms.ifBlock) arms.exitBlock trueExprs
        (⟨.if_, decl, arms.exitBlock, context.stack.length - 1 - decl.params.length⟩ :: frames) place) :
      Visits context entry exit (.if_ decl trueExprs falseExprs :: exprs) frames place
  | else_ {context opened : BlockContext I.Op} {entry : Option Nat} {exit : Nat} {arms : ArmBlocks}
      {decl : BlockDeclaration} {trueExprs falseExprs exprs : List (Expr I.Instr)} {frames : List Frame}
      {place : Place I} {stackPos : Int} {phis : List PHINode} (reachable : context.getInsertBlock ≠ none)
      (opens : beginElse I decl trueExprs context = .ok ((arms, stackPos, phis), opened))
      (visits : Visits opened (some arms.elseBlock) arms.exitBlock falseExprs
        (⟨.if_, decl, arms.exitBlock, context.stack.length - 1 - decl.params.length⟩ :: frames) place) :
      Visits context entry exit (.if_ decl trueExprs falseExprs :: exprs) frames place

/-- The expressions that are visited in a function. -/
def FuncVisits (func : Func I.Instr) (place : Place I) : Prop :=
  ∃ (allocaBlock returnBlock : Nat) (stackPos : Int) (phis : List PHINode) (opened : BlockContext I.Op),
    beginFunc I func ⟨.empty, none, [], [], [], []⟩ = .ok ((allocaBlock, returnBlock, stackPos, phis), opened) ∧
      Visits I opened (some allocaBlock) returnBlock func.exprs [⟨.func, func.decl, returnBlock, 0⟩] place

end WasmToLlvm.Block
