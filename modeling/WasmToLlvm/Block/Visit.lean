import WasmToLlvm.Block.Context

/-!
# The control-flow translation

`visitBlock`, `visitControlInsts`, `visitBr` and `visitFunc`. The visit of a
block's body is an argument of `visitBlock`, so that the recursion follows the
syntax.
-/

set_option autoImplicit false

namespace WasmToLlvm.Block

open Llvm Wasm

/-! ## Straight-line expressions -/

section Straight

variable {Op : Type}

def visitLocalGet (index : Nat) : Visit Op Unit := do
  let target ← Visit.localAt index
  let loaded ← Visit.create (.load target.allocatedType target.value)
  Visit.pushStack loaded

def visitLocalSet (index : Nat) : Visit Op Unit := do
  let value ← Visit.popStack
  let target ← Visit.localAt index
  let _ ← Visit.create (.store value target.value)

def visitLocalTee (index : Nat) : Visit Op Unit := do
  let value ← Visit.popStack
  Visit.pushStack value
  let target ← Visit.localAt index
  let _ ← Visit.create (.store value target.value)

def visitSelectExpr : Visit Op Unit := do
  let condition ← Visit.popStack
  let condition ← Visit.create (.icmp .ne condition (.null condition.type))
  let right ← Visit.popStack
  let left ← Visit.popStack
  let result ← Visit.create (.select condition left right)
  Visit.pushStack result

end Straight

variable (I : InstructionSet)

/-- `dispatchExprs`; control expressions do not reach it. -/
def dispatchExprs : Expr I.Instr → Build I.Op Unit
  | .unreachable => do
      let _ ← insert .unreachable
      clearInsertionPoint
  | .nop => pure ()
  | .drop => do
      let _ ← popStack
  | .select _ => straight visitSelectExpr
  | .localGet index => straight (visitLocalGet index)
  | .localSet index => straight (visitLocalSet index)
  | .localTee index => straight (visitLocalTee index)
  | .instr instr => straight (I.visit instr)
  | .block _ _ => throw (.unsupportedExprType "block")
  | .loop _ _ => throw (.unsupportedExprType "loop")
  | .if_ _ _ _ => throw (.unsupportedExprType "if")
  | .br _ => throw (.unsupportedExprType "br")
  | .brIf _ => throw (.unsupportedExprType "br_if")
  | .brTable _ _ => throw (.unsupportedExprType "br_table")
  | .return_ => throw (.unsupportedExprType "return")

variable {I}

/-! ## Labels -/

section Labels

variable {Op : Type}

/-- Phis for the results of a block, in order. -/
def createResultPhis : List ValType → Nat → Build Op (List PHINode)
  | [], _ => pure []
  | type :: types, index => do
      let converted ← convertType type
      let id ← insert (.phi index converted)
      let phis ← createResultPhis types (index + 1)
      return ⟨id, converted⟩ :: phis

/-- Phis for the parameters of a loop, from the last one to the first. Each takes
the value it stands for from the stack, as an entry for the loop block itself. -/
def createParamPhis (entry : Nat) : List ValType → List PHINode → Build Op (List PHINode)
  | [], phis => pure phis
  | type :: types, phis => do
      let converted ← convertType type
      let id ← insert (.phi types.length converted)
      let value ← popStack
      addIncoming ⟨id, converted⟩ value (some entry)
      createParamPhis entry types (⟨id, converted⟩ :: phis)

def pushPhis (phis : List PHINode) : Build Op Unit :=
  modify fun context =>
    { context with stack := (phis.map PHINode.value).reverse ++ context.stack }

/-- One entry for each phi, the top of the stack for the last one. -/
def addIncomings (phis : List PHINode) (stack : List Value) (block : Option Nat) :
    Build Op Unit :=
  (phis.reverse.zip stack).forM fun (phi, value) => addIncoming phi value block

/-- The switch on the label type: the phis of the label and the block it branches to. -/
def createLabelPhis (lty : LabelType) (entry : Option Nat) (exit : Nat)
    (decl : BlockDeclaration) : Build Op (List PHINode × Nat) :=
  match lty with
  | .block | .func | .if_ => do
      assertOnlyPhis exit
      setInsertPointAtBegin exit
      let phis ← createResultPhis decl.results 0
      setInsertPoint entry
      return (phis, exit)
  | .else_ => do
      setInsertPoint entry
      return ([], exit)
  | .loop =>
      match entry with
      | some entry => do
          assertOnlyPhis entry
          setInsertPointAtBegin entry
          let phis ← createParamPhis entry decl.params.reverse []
          pushPhis phis
          return (phis, entry)
      | none => throw .nullPointer
  | .initExpr | .try_ | .catch_ => throw (.unexpectedLabelType lty)

/-- The part of `visitBlock` before the body: the stack position of the label and
its phis. The second arm of a conditional takes over the label of the first. -/
def enterBlock (lty : LabelType) (entry : Option Nat) (exit : Nat)
    (decl : BlockDeclaration) : Build Op (Int × List PHINode) := do
  let (phis, breakTo) ← createLabelPhis lty entry exit decl
  let context ← get
  let stackPos : Int :=
    if lty = .func then context.stack.length
    else (context.stack.length : Int) - (decl.params.length : Int)
  if lty ≠ .else_ then
    set { context with blockStack := ⟨breakTo, phis, stackPos, decl, lty⟩ :: context.blockStack }
    return (stackPos, phis)
  else
    match context.blockStack with
    | label :: _ => return (label.pos, label.phis)
    | [] => throw .outOfRange

def isBlockLike : LabelType → Bool
  | .loop => false
  | _ => true

/-- The end of a body that can be reached. -/
def leaveReachable (lty : LabelType) (block exit : Nat) (decl : BlockDeclaration)
    (stackPos : Int) (phis : List PHINode) : Build Op Unit := do
  let context ← get
  if (context.stack.length : Int) ≠ stackPos + (decl.results.length : Int) then
    throw (.notEnoughValueOnStack decl.results.length ((context.stack.length : Int) - stackPos))
  if context.stack.length < phis.length then
    throw .assertion
  if isBlockLike lty then
    addIncomings phis context.stack (some block)
    modify fun context => { context with stack := context.stack.drop phis.length }
    if lty ≠ .if_ then
      pushPhis phis
    addEdge .fallThrough (some block) exit (carriedValues context.stack phis.length)
    let _ ← insert (.br exit)

/-- The end of a body that cannot be reached: what is left on the stack is
discarded. After a loop the code stays unreachable. -/
def leaveUnreachable (lty : LabelType) (exit : Nat) (stackPos : Int)
    (phis : List PHINode) : Build Op Unit := do
  if isBlockLike lty then
    setInsertPointAfterPhis exit
    let context ← get
    if (context.stack.length : Int) < stackPos ∨ stackPos < 0 then
      throw .notEnoughValues
    set { context with
      stack := context.stack.drop (context.stack.length - stackPos.toNat) }
    pushPhis phis

/-- The part of `visitBlock` after the body. -/
def leaveBlock (lty : LabelType) (exit : Nat) (decl : BlockDeclaration) (stackPos : Int)
    (phis : List PHINode) : Build Op Unit := do
  if lty ≠ .if_ then
    modify fun context => { context with blockStack := context.blockStack.tail }
  let context ← get
  match context.getInsertBlock with
  | some block => leaveReachable lty block exit decl stackPos phis
  | none => leaveUnreachable lty exit stackPos phis

def visitBlock (lty : LabelType) (entry : Option Nat) (exit : Nat)
    (decl : BlockDeclaration) (visitBody : Build Op Unit) : Build Op Unit := do
  let (stackPos, phis) ← enterBlock lty entry exit decl
  visitBody
  leaveBlock lty exit decl stackPos phis

end Labels

/-! ## Branches -/

section Branches

variable {Op : Type}

/-- The expression types for which `visitBr` is called. -/
inductive BrKind where
  | br | return_ | brIf | brTable
  deriving DecidableEq, Repr

/-- `blockStack.at(index)`; the outermost label has index 0. -/
def labelAt (index : Nat) : Build Op BreakoutTarget := do
  let context ← get
  match context.blockStack.reverse[index]? with
  | some label => return label
  | none => throw .outOfRange

/-- The terminator that `visitBr` creates. -/
def createBranch (kind : BrKind) (target : Nat) (condition : Option Value)
    (nextBlock : Option Nat) : Build Op Nat :=
  match condition, nextBlock with
  | none, none => do
      if kind ≠ .br ∧ kind ≠ .return_ then
        throw .assertion
      let ret ← insert (.br target)
      clearInsertionPoint
      return ret
  | some condition, some nextBlock => do
      if kind ≠ .brIf then
        throw .assertion
      let context ← get
      addEdge .arm context.getInsertBlock nextBlock []
      insert (.condBr condition target nextBlock)
  | some condition, none => do
      if kind ≠ .brTable then
        throw .assertion
      let ret ← insert (.switch condition target)
      clearInsertionPoint
      return ret
  | none, some _ => throw .unexpectedVisitBr

def visitBr (kind : BrKind) (index : Nat) (condition : Option Value)
    (nextBlock : Option Nat) : Build Op Nat := do
  let label ← labelAt index
  if index = 0 ∧ label.lty ≠ .func then
    throw .assertion
  let context ← get
  if context.stack.length < label.phis.length then
    throw .assertion
  addIncomings label.phis context.stack context.getInsertBlock
  addEdge .branch context.getInsertBlock label.target
    (carriedValues context.stack label.phis.length)
  createBranch kind label.target condition nextBlock

/-- The index in `blockStack` of the label at a branch depth. -/
def labelIndex (depth : Nat) (error : Abort) : Build Op Nat := do
  let context ← get
  if context.blockStack.length < depth + 1 then
    throw error
  return context.blockStack.length - (depth + 1)

/-- The explicit targets of a `br_table`. The insertion point is already cleared,
so the entries of the phis get a null block. -/
def visitTargets (switch : Nat) (source : Option Nat) :
    List Nat → Nat → Build Op Unit
  | [], _ => pure ()
  | depth :: depths, i => do
      let index ← labelIndex depth .outOfRange
      let label ← labelAt index
      modify fun context =>
        { context with function := context.function.addCase switch i label.target }
      let context ← get
      if context.stack.length < label.phis.length then
        throw (.notEnoughValueForBrTable i depth)
      addIncomings label.phis context.stack context.getInsertBlock
      addEdge .tableCase source label.target (carriedValues context.stack label.phis.length)
      visitTargets switch source depths (i + 1)

def createICmpNE (value : Value) : Build Op Value :=
  straight (Visit.create (.icmp .ne value (.null value.type)))

end Branches

/-! ## Expressions -/

mutual

/-- One expression at a reachable place; the result is the new `entry`. -/
def visitExpr (I : InstructionSet) (entry : Option Nat) (exit : Nat) :
    Expr I.Instr → Build I.Op (Option Nat)
  | .block decl exprs => do
      let exitBlock ← createBlock "blk_exit"
      visitBlock .block entry exitBlock decl (visitControlInsts I exitBlock exprs entry)
      setInsertPoint (some exitBlock)
      return some exitBlock
  | .loop decl exprs => do
      let entryBlock ← createBlock "loop_entry"
      let context ← get
      addEdge .loopEntry context.getInsertBlock entryBlock
        (carriedValues context.stack decl.params.length)
      let _ ← insert (.br entryBlock)
      setInsertPoint (some entryBlock)
      visitBlock .loop (some entryBlock) exit decl
        (visitControlInsts I exit exprs (some entryBlock))
      let context ← get
      return context.getInsertBlock
  | .if_ decl trueExprs falseExprs => do
      let condition ← popStack
      let context ← get
      if context.stack.length < decl.params.length then
        throw .assertion
      let params := context.stack.take decl.params.length
      let condition ← createICmpNE condition
      let ifBlock ← createBlock "ifblk"
      let elseBlock ← createBlock "elseblk"
      let exitBlock ← createBlock "ifblk_exit"
      addEdge .arm context.getInsertBlock ifBlock []
      addEdge .arm context.getInsertBlock elseBlock []
      let _ ← insert (.condBr condition ifBlock elseBlock)
      setInsertPoint (some ifBlock)
      visitBlock .if_ (some ifBlock) exitBlock decl
        (visitControlInsts I exitBlock trueExprs (some ifBlock))
      modify fun context => { context with stack := params ++ context.stack }
      setInsertPoint (some elseBlock)
      visitBlock .else_ (some elseBlock) exitBlock decl
        (visitControlInsts I exitBlock falseExprs (some elseBlock))
      setInsertPoint (some exitBlock)
      return some exitBlock
  | .brIf depth => do
      let condition ← popStack
      let condition ← createICmpNE condition
      let nextBlock ← createBlock "brif_next"
      let index ← labelIndex depth .assertion
      let _ ← visitBr .brIf index (some condition) (some nextBlock)
      setInsertPoint (some nextBlock)
      return some nextBlock
  | .br depth => do
      let index ← labelIndex depth .assertion
      let _ ← visitBr .br index none none
      return entry
  | .brTable targets default => do
      let condition ← popStack
      let index ← labelIndex default .outOfRange
      let context ← get
      let switch ← visitBr .brTable index (some condition) none
      visitTargets switch context.getInsertBlock targets 0
      return entry
  | .return_ => do
      let _ ← visitBr .return_ 0 none none
      return entry
  | expr => do
      dispatchExprs I expr
      return entry

/-- The loop over the expressions of a body; `entry` is the variable that names
the block to continue in. Expressions at an unreachable place are skipped. -/
def visitControlInsts (I : InstructionSet) (exit : Nat) :
    List (Expr I.Instr) → Option Nat → Build I.Op Unit
  | [], _ => pure ()
  | expr :: exprs, entry => do
      let context ← get
      match context.getInsertBlock with
      | none => visitControlInsts I exit exprs entry
      | some _ =>
          let entry ← visitExpr I entry exit expr
          visitControlInsts I exit exprs entry

end

/-! ## Functions -/

section Functions

variable {Op : Type}

def addLocal (alloca : AllocaInst) : Build Op Unit :=
  modify fun context => { context with locals := context.locals ++ [alloca] }

/-- Storage for the parameters, initialized with the arguments. -/
def visitParams : List ValType → Nat → Build Op Unit
  | [], _ => pure ()
  | type :: types, index => do
      let converted ← convertType type
      let id ← insert (.plain (.alloca converted))
      addLocal ⟨id, converted⟩
      let _ ← insert (.plain (.store (.arg index converted) (AllocaInst.value ⟨id, converted⟩)))
      visitParams types (index + 1)

/-- Storage for the other locals, initialized with zero. -/
def visitLocals : List ValType → Build Op Unit
  | [] => pure ()
  | type :: types => do
      let converted ← convertType type
      let id ← insert (.plain (.alloca converted))
      addLocal ⟨id, converted⟩
      let zero ← convertZeroValue type
      let _ ← insert (.plain (.store zero (AllocaInst.value ⟨id, converted⟩)))
      visitLocals types

/-- The return of a function from its last block. -/
def createReturn (results : List ValType) : Build Op Unit := do
  if results.length = 1 then
    let value ← popStack
    let _ ← insert (.ret (some value))
  else
    if results.length ≠ 0 then
      throw .assertion
    let _ ← insert (.ret none)

end Functions

def visitFuncBody (I : InstructionSet) (func : Func I.Instr) : Build I.Op Unit := do
  let allocaBlock ← createBlock "allocator"
  setInsertPoint (some allocaBlock)
  visitParams func.decl.params 0
  visitLocals func.localTypes
  let returnBlock ← createBlock "return"
  visitBlock .func (some allocaBlock) returnBlock func.decl
    (visitControlInsts I returnBlock func.exprs (some allocaBlock))
  setInsertPoint (some returnBlock)
  createReturn func.decl.results

/-- `visitFunc` on a function that has no blocks yet. -/
def visitFunc (I : InstructionSet) (func : Func I.Instr) :
    Except Abort (BlockContext I.Op) :=
  match visitFuncBody I func ⟨.empty, none, [], [], [], []⟩ with
  | .ok (_, context) => .ok context
  | .error error => .error error

end WasmToLlvm.Block
