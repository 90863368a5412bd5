import WasmToLlvm.Library.Computation
import WasmToLlvm.Llvm.Function
import WasmToLlvm.Wasm.Syntax

/-!
# The state of a function's translation

`BlockContext` with the insertion point of its `IRBuilder`, and the operations
on both. Vectors that the source uses as stacks are lists with the back first.
-/

set_option autoImplicit false

namespace WasmToLlvm.Block

open Llvm Wasm

/-- The ways in which a translation stops. -/
inductive Abort where
  /-- A failed `assert`. -/
  | assertion
  /-- An exception of `at`. -/
  | outOfRange
  /-- A null pointer is used. -/
  | nullPointer
  | unexpectedLabelType (lty : LabelType)
  /-- "Not enough value on stack" at the end of a block. -/
  | notEnoughValueOnStack (expected : Nat) (got : Int)
  | notEnoughValues
  | unexpectedVisitBr
  | notEnoughValueForBrTable (index depth : Nat)
  | cannotConvertType (type : ValType)
  | multiResult
  | unsupportedExprType (kind : String)
  deriving DecidableEq, Repr

/-- A phi of a label. -/
structure PHINode where
  id : Nat
  type : Ty
  deriving DecidableEq, Repr

def PHINode.value (phi : PHINode) : Value := .inst phi.id phi.type

/-- The storage of a local. -/
structure AllocaInst where
  id : Nat
  allocatedType : Ty
  deriving DecidableEq, Repr

def AllocaInst.value (alloca : AllocaInst) : Value := .inst alloca.id .ptr

/-- The position is signed: `stack.size() - decl.GetNumParams()` is a `size_t`,
and where it wraps around it is negative here and counts as larger than any size. -/
structure BreakoutTarget where
  target : Nat
  phis : List PHINode
  pos : Int
  sig : BlockDeclaration
  lty : LabelType
  deriving Repr

/-- The places at which the translator makes an edge of the control-flow graph. -/
inductive EdgeKind where
  | fallThrough | branch | tableCase | loopEntry | arm
  deriving DecidableEq, Repr

/-- History: an edge with the operand values its label carries, first value
first, as they stood on the symbolic stack when the edge was made. -/
structure Edge where
  kind : EdgeKind
  source : Nat
  target : Nat
  carried : List Value
  deriving DecidableEq, Repr

/-- `edges` is a history variable that nothing reads. -/
structure BlockContext (Op : Type) where
  function : Function Op
  insertPoint : Option (Nat × Nat)
  blockStack : List BreakoutTarget
  locals : List AllocaInst
  stack : List Value
  edges : List Edge

abbrev Build (Op : Type) := StateT (BlockContext Op) (Except Abort)

namespace BlockContext

variable {Op : Type}

/-- `IRBuilder::Insert`; without an insertion point the instruction gets no parent. -/
def insert (context : BlockContext Op) (inst : Inst Op) : BlockContext Op :=
  match context.insertPoint with
  | none =>
      { context with
        function := { context.function with insts := context.function.insts ++ [inst] } }
  | some (block, position) =>
      { context with
        function := context.function.insertAt block position inst
        insertPoint := some (block, position + 1) }

def insertAll (context : BlockContext Op) (code : List (Plain Op)) : BlockContext Op :=
  code.foldl (fun context plain => context.insert (.plain plain)) context

def getInsertBlock (context : BlockContext Op) : Option Nat :=
  context.insertPoint.map (·.1)

@[simps] def addEdge (context : BlockContext Op) (kind : EdgeKind) (source target : Nat)
    (carried : List Value) : BlockContext Op :=
  { context with edges := context.edges ++ [⟨kind, source, target, carried⟩] }

end BlockContext

/-! ## Straight-line code

A visit of a straight-line instruction works on the symbolic stack and emits
instructions at the insertion point; it cannot change anything else. -/

/-- `next` is the identity of the first instruction of `code`. -/
structure Straight (Op : Type) where
  stack : List Value
  locals : List AllocaInst
  next : Nat
  code : List (Plain Op)

abbrev Visit (Op : Type) := StateT (Straight Op) (Except Abort)

namespace Visit

variable {Op : Type}

/-- The assertion that the stack is not empty guards the C++ `pop_back`. -/
def popStack : Visit Op Value := fun straight =>
  match straight.stack with
  | value :: rest => .ok (value, { straight with stack := rest })
  | [] => .error .assertion

def pushStack (value : Value) : Visit Op Unit :=
  modify fun straight => { straight with stack := value :: straight.stack }

def create (plain : Plain Op) : Visit Op Value := fun straight =>
  .ok (.inst (straight.next + straight.code.length) plain.type,
    { straight with code := straight.code ++ [plain] })

/-- `locals.at(index)`. -/
def localAt (index : Nat) : Visit Op AllocaInst := fun straight =>
  match straight.locals[index]? with
  | some target => .ok (target, straight)
  | none => .error .outOfRange

end Visit

/-- A set of straight-line instructions with the code emitted for them. -/
structure InstructionSet where
  Instr : Type
  Op : Type
  visit : Instr → Visit Op Unit

/-- The instruction set of functions that only use locals and control instructions. -/
def controlOnly : InstructionSet := ⟨Empty, Empty, nofun⟩

section Builder

variable {Op : Type}

/-- Runs a visit at the insertion point. -/
def straight {α : Type} (visit : Visit Op α) : Build Op α := fun context =>
  match visit ⟨context.stack, context.locals, context.function.insts.length, []⟩ with
  | .ok (value, after) =>
      .ok (value, { context.insertAll after.code with stack := after.stack })
  | .error error => .error error

def popStack : Build Op Value := straight Visit.popStack

/-- `BasicBlock::Create`. -/
def createBlock (name : String) : Build Op Nat := fun context =>
  .ok (context.function.blocks.length,
    { context with function := context.function.newBlock name })

def insert (inst : Inst Op) : Build Op Nat := fun context =>
  .ok (context.function.insts.length, context.insert inst)

/-- `SetInsertPoint(block)`: the end of the block. -/
def setInsertPoint (block : Option Nat) : Build Op Unit := fun context =>
  match block with
  | some block =>
      .ok ((), { context with insertPoint := some (block, (context.function.body block).length) })
  | none => .error .nullPointer

/-- `SetInsertPoint(block, block->begin())`. -/
def setInsertPointAtBegin (block : Nat) : Build Op Unit :=
  modify fun context => { context with insertPoint := some (block, 0) }

/-- `SetInsertPoint(block, getFirstNonPHIOrDbgOrLifetime(block))`. -/
def setInsertPointAfterPhis (block : Nat) : Build Op Unit :=
  modify fun context =>
    { context with insertPoint := some (block, (context.function.leadingPhis block).length) }

def clearInsertionPoint : Build Op Unit :=
  modify fun context => { context with insertPoint := none }

/-- `assert(block->getFirstNonPHIIt() == block->end())`. -/
def assertOnlyPhis (block : Nat) : Build Op Unit := do
  let context ← get
  if (context.function.leadingPhis block).length ≠ (context.function.body block).length then
    throw .assertion

def addIncoming (phi : PHINode) (value : Value) (block : Option Nat) : Build Op Unit :=
  modify fun context =>
    { context with function := context.function.addIncoming phi.id value block }

def addEdge (kind : EdgeKind) (source : Option Nat) (target : Nat)
    (carried : List Value) : Build Op Unit :=
  modify fun context =>
    match source with
    | some source => context.addEdge kind source target carried
    | none => context

/-- The operand values a label with this many phis carries, first value first. -/
def carriedValues (stack : List Value) (arity : Nat) : List Value :=
  (stack.take arity).reverse

end Builder

/-- `convertType`; reference types are not supported. -/
def convertType? : ValType → Option Ty
  | .i32 => some (.int 32)
  | .i64 => some (.int 64)
  | .f32 => some .float
  | .f64 => some .double
  | .v128 => some (.int 128)
  | .funcRef | .externRef => none

def convertType {Op : Type} (type : ValType) : Build Op Ty :=
  match convertType? type with
  | some converted => pure converted
  | none => throw (.cannotConvertType type)

/-- `convertZeroValue`. -/
def convertZeroValue {Op : Type} (type : ValType) : Build Op Value :=
  match type with
  | .i32 => pure (.int 32 0)
  | .i64 => pure (.int 64 0)
  | .f32 => pure (.float 0)
  | .f64 => pure (.double 0)
  | .v128 => pure (.int 128 0)
  | .funcRef | .externRef => throw (.cannotConvertType type)

end WasmToLlvm.Block
