import WasmToLlvm.Library.Simulation
import WasmToLlvm.Wasm.Syntax

/-!
# Execution of function bodies

A machine for bodies of functions. Values are bit patterns. A label keeps the code
behind its construct and the operands below it.
-/

set_option autoImplicit false

namespace WasmToLlvm.Wasm

open Library

/-- The effects of the straight-line instructions on values and on a store; without
an effect an instruction traps. -/
structure Effects (Instr Store : Type) (signature : Instr → Option FuncSignature) where
  run : Instr → List Nat → Store → Option (List Nat × Store)
  sized : ∀ {instr type arguments store results after}, signature instr = some type →
    run instr arguments store = some (results, after) → results.length = type.results.length

/-- A branch to the label of a loop takes its body again. -/
structure Label (Instr : Type) where
  arity : Nat
  again : Option (List (Expr Instr))
  rest : List (Expr Instr)
  below : List Nat

/-- The operands are those of the innermost label, the top first. -/
structure Config (Instr Store : Type) where
  exprs : List (Expr Instr)
  operands : List Nat
  labels : List (Label Instr)
  locals : List Nat
  store : Store

abbrev Event (Instr : Type) := Instr × List Nat

section Machine

variable {Instr Store : Type}

namespace Config

abbrev Next (Instr Store : Type) := Move (Config Instr Store) (Event Instr) (Ending Nat Store)

def enter (config : Config Instr Store) (arity params : Nat) (again : Option (List (Expr Instr)))
    (body rest : List (Expr Instr)) : Next Instr Store :=
  if params ≤ config.operands.length then
    .step none { config with
      exprs := body
      operands := config.operands.take params
      labels := ⟨arity, again, rest, config.operands.drop params⟩ :: config.labels }
  else .stuck

def branch (config : Config Instr Store) (depth : Nat) : Next Instr Store :=
  match config.labels[depth]? with
  | none => .stuck
  | some label =>
      if label.arity ≤ config.operands.length then
        match label.again with
        | none =>
            .step none { config with
              exprs := label.rest
              operands := config.operands.take label.arity ++ label.below
              labels := config.labels.drop (depth + 1) }
        | some body =>
            .step none { config with
              exprs := body
              operands := config.operands.take label.arity
              labels := config.labels.drop depth }
      else .stuck

/-- The end of a body. -/
def leave (config : Config Instr Store) : Next Instr Store :=
  match config.labels with
  | [] => .halt (.returned config.operands.reverse config.store)
  | label :: labels =>
      .step none { config with
        exprs := label.rest
        operands := config.operands ++ label.below
        labels := labels }

end Config

variable {signature : Instr → Option FuncSignature}

def Config.perform (effects : Effects Instr Store signature) (config : Config Instr Store)
    (instr : Instr) (rest : List (Expr Instr)) : Config.Next Instr Store :=
  match signature instr with
  | none => .stuck
  | some type =>
      if type.params.length ≤ config.operands.length then
        let arguments := (config.operands.take type.params.length).reverse
        match effects.run instr arguments config.store with
        | none => .halt (.trapped config.store)
        | some (results, after) =>
            .step (some (instr, arguments)) { config with
              exprs := rest
              operands := results.reverse ++ config.operands.drop type.params.length
              store := after }
      else .stuck

/-- One expression, with the code behind it. -/
def Config.stepExpr (effects : Effects Instr Store signature) (config : Config Instr Store) :
    Expr Instr → List (Expr Instr) → Config.Next Instr Store
  | .block decl body, rest => config.enter decl.results.length decl.params.length none body rest
  | .loop decl body, rest => config.enter decl.params.length decl.params.length (some body) body rest
  | .if_ decl trueExprs falseExprs, rest =>
      match config.operands with
      | condition :: operands =>
          { config with operands }.enter decl.results.length decl.params.length none
            (if condition ≠ 0 then trueExprs else falseExprs) rest
      | [] => .stuck
  | .br depth, _ => config.branch depth
  | .brIf depth, rest =>
      match config.operands with
      | condition :: operands =>
          if condition ≠ 0 then { config with operands }.branch depth
          else .step none { config with exprs := rest, operands }
      | [] => .stuck
  | .brTable targets default, _ =>
      match config.operands with
      | index :: operands => { config with operands }.branch (targets[index]?.getD default)
      | [] => .stuck
  | .return_, _ => config.branch (config.labels.length - 1)
  | .unreachable, _ => .halt (.trapped config.store)
  | .nop, rest => .step none { config with exprs := rest }
  | .drop, rest =>
      match config.operands with
      | _ :: operands => .step none { config with exprs := rest, operands }
      | [] => .stuck
  | .select _, rest =>
      match config.operands with
      | condition :: right :: left :: operands =>
          .step none { config with
            exprs := rest
            operands := (if condition ≠ 0 then left else right) :: operands }
      | _ => .stuck
  | .localGet index, rest =>
      match config.locals[index]? with
      | some value => .step none { config with exprs := rest, operands := value :: config.operands }
      | none => .stuck
  | .localSet index, rest =>
      match config.operands with
      | value :: operands =>
          if index < config.locals.length then
            .step none { config with exprs := rest, operands, locals := config.locals.set index value }
          else .stuck
      | [] => .stuck
  | .localTee index, rest =>
      match config.operands with
      | value :: _ =>
          if index < config.locals.length then
            .step none { config with exprs := rest, locals := config.locals.set index value }
          else .stuck
      | [] => .stuck
  | .instr instr, rest => config.perform effects instr rest

def Config.step (effects : Effects Instr Store signature) (config : Config Instr Store) :
    Config.Next Instr Store :=
  match config.exprs with
  | [] => config.leave
  | expr :: rest => config.stepExpr effects expr rest

/-- The call of a function; its other locals are zero. -/
def Func.start (func : Func Instr) (arguments : List Nat) (store : Store) : Config Instr Store where
  exprs := func.exprs
  operands := []
  labels := [⟨func.decl.results.length, none, [], []⟩]
  locals := arguments ++ func.localTypes.map fun _ => 0
  store

end Machine

end WasmToLlvm.Wasm
