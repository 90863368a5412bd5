import Mathlib.Algebra.Ring.Nat
import Mathlib.Tactic.Common

/-!
# WebAssembly function bodies

Function bodies as the translator receives them. The instructions that neither
transfer control nor touch a local form a parameter: the control translation
does not look inside them.
-/

set_option autoImplicit false

namespace WasmToLlvm.Wasm

inductive ValType where
  | i32 | i64 | f32 | f64 | v128 | funcRef | externRef
  deriving DecidableEq, Repr

namespace ValType

def isRef : ValType → Bool
  | .funcRef | .externRef => true
  | _ => false

end ValType

/-- Parameters and results, the first one deepest on the stack. -/
structure FuncSignature where
  params : List ValType
  results : List ValType
  deriving DecidableEq, Repr

/-- `wabt::BlockDeclaration`; a block is typed like a function. -/
abbrev BlockDeclaration := FuncSignature

/-- `wabt::LabelType`. -/
inductive LabelType where
  | func | initExpr | block | loop | if_ | else_ | try_ | catch_
  deriving DecidableEq, Repr

/-- `wabt::Expr`, with the branch depths validation has resolved. The
straight-line instructions are those of `Instr`. -/
inductive Expr (Instr : Type) where
  | block (decl : BlockDeclaration) (exprs : List (Expr Instr))
  | loop (decl : BlockDeclaration) (exprs : List (Expr Instr))
  | if_ (decl : BlockDeclaration) (trueExprs falseExprs : List (Expr Instr))
  | br (depth : Nat)
  | brIf (depth : Nat)
  | brTable (targets : List Nat) (default : Nat)
  | return_
  | unreachable
  | nop
  | drop
  | select (resultType : Option ValType)
  | localGet (index : Nat)
  | localSet (index : Nat)
  | localTee (index : Nat)
  | instr (instr : Instr)

/-- `wabt::ExprList`. -/
abbrev ExprList (Instr : Type) := List (Expr Instr)

structure Func (Instr : Type) where
  decl : FuncSignature
  localTypes : List ValType
  exprs : ExprList Instr

/-- The types of all locals, the parameters first. -/
def Func.locals {Instr : Type} (func : Func Instr) : List ValType :=
  func.decl.params ++ func.localTypes

/-! ## Unconditional transfers

Code behind an unconditional transfer is never reached. Blocks and conditionals
have a join behind them, and a loop is left only at the end of its body. -/

mutual

def Expr.diverges {Instr : Type} : Expr Instr → Bool
  | .loop _ exprs => ExprList.diverges exprs
  | .br _ | .brTable _ _ | .return_ | .unreachable => true
  | .block _ _ | .if_ _ _ _ | .brIf _ | .nop | .drop | .select _ | .localGet _ | .localSet _
  | .localTee _ | .instr _ => false

def ExprList.diverges {Instr : Type} : List (Expr Instr) → Bool
  | [] => false
  | expr :: exprs => Expr.diverges expr || ExprList.diverges exprs

end

end WasmToLlvm.Wasm
