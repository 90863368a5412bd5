import WasmToLlvm.Library.Effects
import WasmToLlvm.Modules.Segments

/-!
# Computations that only read

They add nothing in any grading of the contexts.
-/

set_option autoImplicit false

namespace WasmToLlvm.Modules

open Llvm Wasm Block Instruction Library

variable {M : Type} [Monoid M] {grading : Grading Context M} {before : Context}

theorem at_reads {α : Type} {values : List α} {index : Nat} :
    Effect grading before (at_ values index) 1 := by
  unfold at_
  split
  · exact .pure _
  · exact .throw _

theorem convertType_reads {type : ValType} : Effect grading before (convertType type) 1 := by
  unfold convertType
  split
  · exact .pure _
  · exact .throw _

theorem convertTypes_reads {types : List ValType} : Effect grading before (convertTypes types) 1 := by
  induction types with
  | nil => exact .pure _
  | cons type types ih =>
      refine convertType_reads.skip fun ran => ?_
      cases convertType_reads.same ran
      exact ih.skip fun _ => .pure _

theorem convertFuncType_reads {sig : FuncSignature} : Effect grading before (convertFuncType sig) 1 := by
  unfold convertFuncType
  refine convertTypes_reads.skip fun _ => ?_
  split
  · exact .pure _
  · exact convertType_reads.skip fun _ => .pure _
  · exact .throw _

theorem visitInitExpr_reads {expr : InitExpr} : Effect grading before (visitInitExpr expr) 1 := by
  unfold visitInitExpr
  split
  · exact .pure _
  · exact .throw _
  · exact .pure _
  · exact .throw _

theorem unwrapIntConstant_reads {value : Option Value} : Effect grading before (unwrapIntConstant value) 1 := by
  unfold unwrapIntConstant
  split
  · exact .pure _
  · exact .throw _

theorem copyData_reads {buffer data : List Byte} {offset : BitVec 64} :
    Effect grading before (copyData buffer offset data) 1 := by
  unfold copyData
  exact .ite (fun _ => .throw _) fun _ => .ite (fun _ => .pure _) fun _ => .throw _

theorem elemSlot_reads {elem : ElemSegment} {funcs : List Nat} {offset slot : Nat} :
    Effect grading before (elemSlot elem funcs offset slot) 1 := by
  unfold elemSlot
  refine .ite (fun _ => .ite (fun _ => ?_) fun _ => .throw _) fun _ => .pure _
  split
  · exact at_reads.skip fun _ => .pure _
  · exact .throw _

theorem elemSlots_reads {elem : ElemSegment} {funcs : List Nat} {offset : Nat} {places : List Nat} :
    Effect grading before (elemSlots elem funcs offset places) 1 := by
  induction places generalizing before with
  | nil => exact .pure _
  | cons slot places ih =>
      unfold elemSlots
      exact elemSlot_reads.skip fun _ => ih.skip fun _ => .pure _

end WasmToLlvm.Modules
