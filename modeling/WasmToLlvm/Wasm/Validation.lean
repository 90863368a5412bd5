import WasmToLlvm.Wasm.Syntax

/-!
# Validation

The validation algorithm of WebAssembly, as `wabt::ValidateModule` applies it to
a body before translation starts. Operands of unknown type occur only behind an
unconditional transfer.
-/

set_option autoImplicit false

namespace WasmToLlvm.Wasm

/-- The operands of the innermost frame, the top first. -/
structure Operands where
  types : List (Option ValType)
  unreachable : Bool
  deriving DecidableEq, Repr

namespace Operands

/-- Behind an unconditional transfer any operand can be popped. -/
def polymorphic : Operands := ⟨[], true⟩

def live (types : List ValType) : Operands := ⟨types.map some, false⟩

def push (type : Option ValType) (operands : Operands) : Operands :=
  { operands with types := type :: operands.types }

def pushList (types : List ValType) (operands : Operands) : Operands :=
  { operands with types := types.reverse.map some ++ operands.types }

def pop (operands : Operands) : Option (Option ValType × Operands) :=
  match operands.types with
  | type :: rest => some (type, { operands with types := rest })
  | [] => if operands.unreachable then some (none, operands) else none

def popExpect (expected : ValType) (operands : Operands) : Option Operands := do
  let (type, rest) ← operands.pop
  if type = none ∨ type = some expected then some rest else none

/-- Pops the types of a list, the last one first. -/
def popList (types : List ValType) (operands : Operands) : Option Operands :=
  types.reverse.foldlM (fun operands type => operands.popExpect type) operands

end Operands

/-- What a body is validated against. `signature` types the straight-line
instructions and fails on those that the module does not allow. -/
structure ValidationContext (Instr : Type) where
  labels : List (List ValType)
  locals : List ValType
  results : List ValType
  signature : Instr → Option FuncSignature

namespace ValidationContext

variable {Instr : Type}

def withLabel (context : ValidationContext Instr) (types : List ValType) :
    ValidationContext Instr :=
  { context with labels := types :: context.labels }

@[simp] theorem withLabel_labels (context : ValidationContext Instr) (types : List ValType) :
    (context.withLabel types).labels = types :: context.labels := rfl

@[simp] theorem withLabel_locals (context : ValidationContext Instr) (types : List ValType) :
    (context.withLabel types).locals = context.locals := rfl

@[simp] theorem withLabel_results (context : ValidationContext Instr) (types : List ValType) :
    (context.withLabel types).results = context.results := rfl

@[simp] theorem withLabel_signature (context : ValidationContext Instr) (types : List ValType) :
    (context.withLabel types).signature = context.signature := rfl

end ValidationContext

/-- The operand types of an untyped `select` must be numeric or vectors and agree. -/
def selectType : Option ValType → Option ValType → Option (Option ValType)
  | none, none => some none
  | none, some right => if right.isRef then none else some (some right)
  | some left, none => if left.isRef then none else some (some left)
  | some left, some right =>
      if left.isRef ∨ left ≠ right then none else some (some left)

/-- The frame of a body must end with exactly its results. -/
def closeFrame (results : List ValType) (operands : Operands) : Option Unit := do
  let rest ← operands.popList results
  if rest.types = [] then some () else none

/-- `br_table` checks every target against the operands, which stay as they are even where
their types are unknown, and the default last. -/
def checkTargets {Instr : Type} (context : ValidationContext Instr) (arity : Nat)
    (operands : Operands) : List Nat → Option Operands
  | [] => some operands
  | depth :: depths => do
      let label ← context.labels[depth]?
      if label.length ≠ arity then none
      let _ ← operands.popList label
      checkTargets context arity operands depths

mutual

def checkExpr {Instr : Type} (context : ValidationContext Instr) :
    Expr Instr → Operands → Option Operands
  | .block decl exprs, operands => do
      let rest ← operands.popList decl.params
      let final ← checkExprs (context.withLabel decl.results) exprs
        (Operands.live decl.params.reverse)
      closeFrame decl.results final
      return rest.pushList decl.results
  | .loop decl exprs, operands => do
      let rest ← operands.popList decl.params
      let final ← checkExprs (context.withLabel decl.params) exprs
        (Operands.live decl.params.reverse)
      closeFrame decl.results final
      return rest.pushList decl.results
  | .if_ decl trueExprs falseExprs, operands => do
      let condition ← operands.popExpect .i32
      let rest ← condition.popList decl.params
      let trueFinal ← checkExprs (context.withLabel decl.results) trueExprs
        (Operands.live decl.params.reverse)
      closeFrame decl.results trueFinal
      let falseFinal ← checkExprs (context.withLabel decl.results) falseExprs
        (Operands.live decl.params.reverse)
      closeFrame decl.results falseFinal
      return rest.pushList decl.results
  | .br depth, operands => do
      let label ← context.labels[depth]?
      let _ ← operands.popList label
      return Operands.polymorphic
  | .brIf depth, operands => do
      let rest ← operands.popExpect .i32
      let label ← context.labels[depth]?
      let below ← rest.popList label
      return below.pushList label
  | .brTable targets default, operands => do
      let rest ← operands.popExpect .i32
      let label ← context.labels[default]?
      let after ← checkTargets context label.length rest targets
      let _ ← after.popList label
      return Operands.polymorphic
  | .return_, operands => do
      let _ ← operands.popList context.results
      return Operands.polymorphic
  | .unreachable, _ => return Operands.polymorphic
  | .nop, operands => return operands
  | .drop, operands => do
      let (_, rest) ← operands.pop
      return rest
  | .select none, operands => do
      let rest ← operands.popExpect .i32
      let (right, rest) ← rest.pop
      let (left, rest) ← rest.pop
      let type ← selectType left right
      return rest.push type
  | .select (some type), operands => do
      let rest ← operands.popExpect .i32
      let rest ← rest.popList [type, type]
      return rest.pushList [type]
  | .localGet index, operands => do
      let type ← context.locals[index]?
      return operands.push (some type)
  | .localSet index, operands => do
      let type ← context.locals[index]?
      operands.popExpect type
  | .localTee index, operands => do
      let type ← context.locals[index]?
      let rest ← operands.popExpect type
      return rest.push (some type)
  | .instr instr, operands => do
      let signature ← context.signature instr
      let rest ← operands.popList signature.params
      return rest.pushList signature.results

def checkExprs {Instr : Type} (context : ValidationContext Instr) :
    List (Expr Instr) → Operands → Option Operands
  | [], operands => some operands
  | expr :: exprs, operands => do
      let next ← checkExpr context expr operands
      checkExprs context exprs next

end

/-- A function body is validated in the frame of its outermost label. -/
def validates {Instr : Type} (signature : Instr → Option FuncSignature) (func : Func Instr) :
    Option Unit := do
  let context : ValidationContext Instr :=
    { labels := [func.decl.results], locals := func.locals, results := func.decl.results, signature }
  let final ← checkExprs context func.exprs (Operands.live [])
  closeFrame func.decl.results final

/-- The body is accepted by validation. -/
def Validated {Instr : Type} (signature : Instr → Option FuncSignature) (func : Func Instr) :
    Prop :=
  validates signature func = some ()

instance {Instr : Type} (signature : Instr → Option FuncSignature) (func : Func Instr) :
    Decidable (Validated signature func) :=
  inferInstanceAs (Decidable (_ = _))

end WasmToLlvm.Wasm
