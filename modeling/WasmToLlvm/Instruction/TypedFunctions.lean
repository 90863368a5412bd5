import WasmToLlvm.Instruction.LabelStack
import WasmToLlvm.Instruction.TypedVisits

/-!
# Types of translated functions

Where only instructions that keep the types are visited, the values on the symbolic stack
have the LLVM types of their types at every expression, and the code passes the checks of
the verifier on the types of operands.
-/

set_option autoImplicit false

namespace WasmToLlvm.Instruction

open Llvm Wasm Block Library BlockContext

section Functions

variable {environment : Environment} {func : Func Instr}

theorem keeping (environment : Environment) : Keeping (I := instructions environment) Accepts Instr.keepsTypes
    (Instr.signature environment) where
  tracks instr kept := visitInstr_tracksAt (by simp [Instr.keepsTypes_tracked kept])
  retypes instr kept := visitInstr_retypesAt environment kept

/-- In a validated function the symbolic stack, the labels and the locals have the types of
validation at every expression that is visited, and the code so far is accepted, if all
instructions that are visited keep the types; so is the code of the finished function. -/
theorem visitFunc_typed (validated : Validated (Instr.signature environment) func)
    (visited : ExprList.visitedAll Instr.keepsTypes func.exprs) :
    (∀ place, FuncVisits (instructions environment) func place →
      ∃ results, Convert func.decl.results results ∧
        TypedPlace Accepts results (Instr.signature environment) func place) ∧
      ∀ final, visitFunc (instructions environment) func = .ok final →
        ∃ results, Convert func.decl.results results ∧ final.function.Agrees Accepts results := by
  refine ⟨fun place visits => ?_, fun final built => ?_⟩
  · exact visits.typed validated (keeping environment) visited
  · exact (visitFunc_ok.mp built).typed validated (keeping environment) visited

end Functions

/-- A vector that is carried out of a block from two places. -/
def masking : Func Instr where
  decl := ⟨[.v128, .i32], [.v128]⟩
  localTypes := []
  exprs := [.localGet 0, .block ⟨[], [.v128]⟩ [.localGet 0, .instr (.unary .v128Not), .localGet 1, .brIf 0, .drop,
    .instr (.const (.v128 7))], .instr (.binary .v128And)]

theorem visitFunc_typed_masking : ∃ final, visitFunc (instructions alone) masking = .ok final ∧
    ∃ results, Convert masking.decl.results results ∧ final.function.Agrees Accepts results := by
  obtain ⟨final, built⟩ := visitFunc_completes
    (show (visitFunc (instructions alone) masking).isOk from by decide +kernel)
  exact ⟨final, built, (visitFunc_typed (by decide +kernel) (by decide +kernel)).2 final built⟩

/-- The phi of the result gets a vector of four lanes from one place and an `i128` from
another. -/
def splatting : Func Instr where
  decl := ⟨[.v128, .i32], [.v128]⟩
  localTypes := []
  exprs := [.localGet 1, .instr (.unary .i32x4Splat), .localGet 1, .brIf 0, .drop, .localGet 0]

theorem typed_lost : Validated (Instr.signature alone) splatting ∧
    ∃ final, visitFunc (instructions alone) splatting = .ok final ∧
      ¬∃ results, Convert splatting.decl.results results ∧ final.function.Agrees Accepts results := by
  refine ⟨by decide +kernel, ?_⟩
  have facts : (visitFunc (instructions alone) splatting).toOption.map (fun final => final.function.incoming) =
      some [⟨4, .inst 7 (.vector 4 (.int 32)), some 0⟩, ⟨4, .inst 11 (.int 128), some 2⟩] := by
    decide +kernel
  cases built : visitFunc (instructions alone) splatting with
  | error error =>
      rw [built] at facts
      cases facts
  | ok final =>
      rw [built] at facts
      have incoming : final.function.incoming =
          [⟨4, .inst 7 (.vector 4 (.int 32)), some 0⟩, ⟨4, .inst 11 (.int 128), some 2⟩] := Option.some.inj facts
      have first : (⟨4, .inst 7 (.vector 4 (.int 32)), some 0⟩ : Incoming) ∈ final.function.incoming := by
        rw [incoming]
        exact List.mem_cons_self
      have second : (⟨4, .inst 11 (.int 128), some 2⟩ : Incoming) ∈ final.function.incoming := by
        rw [incoming]
        exact List.mem_cons_of_mem _ List.mem_cons_self
      refine ⟨final, rfl, fun ⟨results, _, agrees⟩ => ?_⟩
      obtain ⟨_, isVector⟩ := agrees.entries _ first
      obtain ⟨_, isInteger⟩ := agrees.entries _ second
      cases isVector.symm.trans isInteger

end WasmToLlvm.Instruction
