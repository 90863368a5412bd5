import Mathlib.Algebra.Ring.Nat
import Mathlib.Tactic.Common

/-!
# LLVM functions under construction

The part of LLVM's in-memory representation that the translator builds:
types, values, instructions and basic blocks. Blocks and instruction objects are
numbered in order of creation, and a block lists the numbers of the instructions
it contains.
-/

set_option autoImplicit false

namespace WasmToLlvm.Llvm

inductive Ty where
  | int (width : Nat)
  | float
  | double
  | ptr
  | void
  | vector (lanes : Nat) (element : Ty)
  | array (count : Nat) (element : Ty)
  deriving DecidableEq, Repr

/-- The objects a translated function refers to by address. -/
inductive GlobalRef where
  | function (index : Nat)
  | variable (index : Nat)
  | memory (index : Nat)
  | table (index : Nat)
  deriving DecidableEq, Repr

/-- An operand. Floating-point constants are given by their bit pattern. A constant of
another form has a key of its own in the context, and stands for its lanes. -/
inductive Value where
  | inst (id : Nat) (type : Ty)
  | arg (index : Nat) (type : Ty)
  | int (width : Nat) (value : Nat)
  | float (bits : Nat)
  | double (bits : Nat)
  | null (type : Ty)
  | undef (type : Ty)
  | allOnes (type : Ty)
  | splat (lanes : Nat) (width : Nat) (value : Nat)
  | constant (key : Nat) (type : Ty) (lanes : List (Option Nat))
  | global (ref : GlobalRef)
  deriving DecidableEq, Repr

def Value.type : Value → Ty
  | .inst _ type => type
  | .arg _ type => type
  | .int width _ => .int width
  | .float _ => .float
  | .double _ => .double
  | .null type => type
  | .undef type => type
  | .allOnes type => type
  | .splat lanes width _ => .vector lanes (.int width)
  | .constant _ type _ => type
  | .global _ => .ptr

/-- The instruction whose result a value is, if any. -/
def Value.instId? : Value → Option Nat
  | .inst id _ => some id
  | _ => none

inductive IntPredicate where
  | eq | ne | sgt | sge | slt | sle | ugt | uge | ult | ule
  deriving DecidableEq, Repr

/-- The type of a comparison: a bit, or one bit a lane. -/
def Ty.comparison : Ty → Ty
  | .vector lanes _ => .vector lanes (.int 1)
  | _ => .int 1

/-- Instructions that are neither phis nor terminators. `Op` ranges over the
operations that only straight-line code uses. -/
inductive Plain (Op : Type) where
  | alloca (type : Ty)
  | load (type : Ty) (address : Value)
  | store (value address : Value)
  | icmp (predicate : IntPredicate) (left right : Value)
  | select (condition ifTrue ifFalse : Value)
  | op (op : Op) (type : Ty) (operands : List Value)
  deriving Repr

def Plain.type {Op : Type} : Plain Op → Ty
  | .alloca _ => .ptr
  | .load type _ => type
  | .store _ _ => .void
  | .icmp _ left _ => left.type.comparison
  | .select _ ifTrue _ => ifTrue.type
  | .op _ type _ => type

def Plain.operands {Op : Type} : Plain Op → List Value
  | .alloca _ => []
  | .load _ address => [address]
  | .store value address => [value, address]
  | .icmp _ left right => [left, right]
  | .select condition ifTrue ifFalse => [condition, ifTrue, ifFalse]
  | .op _ _ operands => operands

/-- Instruction objects. The entries of a phi and the cases of a switch are
added after the object exists and are kept by the function. The index of a phi
is the suffix of its name, its position among the phis of its label. -/
inductive Inst (Op : Type) where
  | plain (code : Plain Op)
  | phi (index : Nat) (type : Ty)
  | br (target : Nat)
  | condBr (condition : Value) (ifTrue ifFalse : Nat)
  | switch (condition : Value) (default : Nat)
  | ret (value : Option Value)
  | unreachable
  deriving Repr

namespace Inst

variable {Op : Type}

def isTerminator : Inst Op → Bool
  | .plain _ | .phi _ _ => false
  | .br _ | .condBr _ _ _ | .switch _ _ | .ret _ | .unreachable => true

def isPhi : Inst Op → Bool
  | .phi _ _ => true
  | _ => false

def isPlain : Inst Op → Bool
  | .plain _ => true
  | _ => false

/-- The targets an instruction object holds itself; a switch has more as cases. -/
def targets : Inst Op → List Nat
  | .br target => [target]
  | .condBr _ ifTrue ifFalse => [ifTrue, ifFalse]
  | .switch _ default => [default]
  | _ => []

/-- The operands an instruction object holds itself; those of a phi are its entries. -/
def operands : Inst Op → List Value
  | .plain code => code.operands
  | .phi _ _ => []
  | .br _ => []
  | .condBr condition _ _ => [condition]
  | .switch condition _ => [condition]
  | .ret value => value.toList
  | .unreachable => []

end Inst

structure BasicBlock where
  name : String
  insts : List Nat
  deriving Repr

/-- `PHINode::addIncoming`: the phi, the value and the block it comes from,
which the translator may leave null. -/
structure Incoming where
  phi : Nat
  value : Value
  block : Option Nat
  deriving DecidableEq, Repr

/-- `SwitchInst::addCase`. -/
structure SwitchCase where
  switch : Nat
  value : Nat
  target : Nat
  deriving DecidableEq, Repr

structure Function (Op : Type) where
  insts : List (Inst Op)
  blocks : List BasicBlock
  incoming : List Incoming
  cases : List SwitchCase
  deriving Repr

namespace Function

variable {Op : Type}

def empty : Function Op := ⟨[], [], [], []⟩

/-- The instructions of a block, in order. -/
def body (function : Function Op) (block : Nat) : List Nat :=
  match function.blocks[block]? with
  | some basicBlock => basicBlock.insts
  | none => []

def isPhi (function : Function Op) (id : Nat) : Bool :=
  match function.insts[id]? with
  | some inst => inst.isPhi
  | none => false

/-- The phis a block starts with. -/
def leadingPhis (function : Function Op) (block : Nat) : List Nat :=
  (function.body block).takeWhile function.isPhi

/-- The entries of a phi, in the order in which they were added. -/
def entries (function : Function Op) (phi : Nat) : List (Value × Option Nat) :=
  (function.incoming.filter fun entry => entry.phi == phi).map fun entry => (entry.value, entry.block)

def casesOf (function : Function Op) (switch : Nat) : List (Nat × Nat) :=
  (function.cases.filter fun entry => entry.switch == switch).map fun entry =>
    (entry.value, entry.target)

/-- The targets of an instruction, one for each edge it makes. -/
def targets (function : Function Op) (id : Nat) : List Nat :=
  match function.insts[id]? with
  | some (.br target) => [target]
  | some (.condBr _ ifTrue ifFalse) => [ifTrue, ifFalse]
  | some (.switch _ default) => default :: (function.casesOf id).map (·.2)
  | _ => []

/-- The successors of a block, one for each edge that leaves it. -/
def successors (function : Function Op) (block : Nat) : List Nat :=
  (function.body block).flatMap function.targets

/-- The predecessors of a block, one for each edge that enters it. -/
def predecessors (function : Function Op) (block : Nat) : List Nat :=
  (List.range function.blocks.length).flatMap fun source =>
    ((function.successors source).filter fun target => target == block).map fun _ => source

def newBlock (function : Function Op) (name : String) : Function Op :=
  { function with blocks := function.blocks ++ [⟨name, []⟩] }

/-- A new instruction object in front of position `position` of a block. -/
def insertAt (function : Function Op) (block : Nat) (position : Nat) (inst : Inst Op) :
    Function Op :=
  { function with
    insts := function.insts ++ [inst]
    blocks := function.blocks.modify block fun basicBlock =>
      { basicBlock with insts := basicBlock.insts.insertIdx position function.insts.length } }

def addIncoming (function : Function Op) (phi : Nat) (value : Value)
    (block : Option Nat) : Function Op :=
  { function with incoming := function.incoming ++ [⟨phi, value, block⟩] }

def addCase (function : Function Op) (switch : Nat) (value : Nat) (target : Nat) :
    Function Op :=
  { function with cases := function.cases ++ [⟨switch, value, target⟩] }

end Function

end WasmToLlvm.Llvm
