import WasmToLlvm.Block.Layout

/-!
# The blocks of a function

The blocks that a function is translated to, in order. A block that is made for a construct
stands in front of the blocks of its body, and code that is not reached has no blocks.
-/

set_option autoImplicit false

namespace WasmToLlvm.Wasm

mutual

/-- The names of the blocks that are made for an expression. -/
def Expr.blockNames {Instr : Type} : Expr Instr → List String
  | .block _ exprs => "blk_exit" :: ExprList.blockNames exprs
  | .loop _ exprs => "loop_entry" :: ExprList.blockNames exprs
  | .if_ _ trueExprs falseExprs =>
      "ifblk" :: "elseblk" :: "ifblk_exit" ::
        (ExprList.blockNames trueExprs ++ ExprList.blockNames falseExprs)
  | .brIf _ => ["brif_next"]
  | .br _ | .brTable _ _ | .return_ | .unreachable | .nop | .drop | .select _ | .localGet _ | .localSet _
  | .localTee _ | .instr _ => []

def ExprList.blockNames {Instr : Type} : List (Expr Instr) → List String
  | [] => []
  | expr :: exprs => Expr.blockNames expr ++ if Expr.diverges expr then [] else ExprList.blockNames exprs

end

end WasmToLlvm.Wasm

namespace WasmToLlvm.Block

open Llvm Wasm Library BlockContext

variable {I : InstructionSet}

/-! ## Runs -/

theorem Step.names {context next : BlockContext I.Op} {block : Nat} {expr : Expr I.Instr}
    (step : Step I context block expr next) :
    next.function.names = context.function.names ++ expr.blockNames := by
  cases step with
  | straight code _ => cases expr <;> first | cases code; done | simp [Expr.blockNames, afterVisit]
  | unreachable => simp [Expr.blockNames]
  | br _ => simp [Expr.blockNames, branchTo]
  | return_ _ _ => simp [Expr.blockNames, branchTo]
  | brIf _ _ => simp [Expr.blockNames]
  | brTable _ _ _ => simp [Expr.blockNames, startTable, branchTo]

theorem leave_names {Op : Type} (context : BlockContext Op) (lty : LabelType) (label : BreakoutTarget) :
    (context.leave lty label).function.names = context.function.names := by
  simp [leave]

theorem startElse_names {Op : Type} (context : BlockContext Op) (label : BreakoutTarget) (elseBlock : Nat)
    (params : List Value) : (context.startElse label elseBlock params).function.names = context.function.names := by
  simp [startElse, leave_names]

/-- Code behind the end is skipped. -/
theorem Emits.names_skipped {context final : BlockContext I.Op} {exprs : List (Expr I.Instr)}
    (emits : Emits I context exprs final) (nowhere : context.insertPoint = none) :
    final.function.names = context.function.names := by
  cases emits with
  | nil => rfl
  | skipped _ => rfl
  | step here _ _ => exact absurd nowhere here.reachable
  | block here _ _ _ _ => exact absurd nowhere here.reachable
  | loop here _ _ _ _ _ => exact absurd nowhere here.reachable
  | if_ here _ _ _ _ _ _ _ _ => exact absurd nowhere here.reachable

theorem Emits.names {context final : BlockContext I.Op} {exprs : List (Expr I.Instr)}
    (emits : Emits I context exprs final) (reached : context.insertPoint ≠ none) :
    final.function.names = context.function.names ++ ExprList.blockNames exprs := by
  induction emits with
  | nil => simp [ExprList.blockNames]
  | skipped nowhere => exact absurd nowhere reached
  | @step context next final block expr exprs here head tail ih =>
      rw [ExprList.blockNames]
      by_cases diverges : expr.diverges = true
      · rw [tail.names_skipped (head.nowhere_iff.mpr diverges), head.names, if_pos diverges, List.append_nil]
      · rw [ih (fun nowhere => diverges (head.nowhere_iff.mp nowhere)), head.names, if_neg diverges,
          List.append_assoc]
  | @block context inner final block decl body exprs types here all run closable tail ihRun ihTail =>
      have entered := (startBlock_at decl types here).reachable
      have left : ((inner.leave .block (context.blockLabel decl types)).moveTo
        context.function.blocks.length).insertPoint ≠ none := by simp
      rw [ihTail left, moveTo_function, leave_names, ihRun entered, startBlock_names, ExprList.blockNames,
        Expr.blockNames, Expr.diverges]
      simp
  | @loop context inner final block decl body exprs types here all enough run closable tail ihRun ihTail =>
      have entered : (context.startLoop block decl types).insertPoint ≠ none := (startLoop_at _ _).reachable
      have inside := ihRun entered
      rw [startLoop_names] at inside
      have ends : inner.insertPoint = none ↔ ExprList.diverges body := by
        rw [run.nowhere_iff]
        exact or_iff_right entered
      rw [ExprList.blockNames, Expr.blockNames, Expr.diverges]
      by_cases diverges : ExprList.diverges body = true
      · rw [tail.names_skipped (ends.mpr diverges), withLabels_function, inside]
        simp [diverges]
      · rw [ihTail fun nowhere => diverges (ends.mp nowhere), withLabels_function, inside]
        simp [diverges]
  | @if_ context first second final block value rest decl trueExprs falseExprs exprs types here top enough all
      runTrue closableTrue runFalse closableFalse tail ihTrue ihFalse ihTail =>
      have entered : (context.startThen block value rest decl types).insertPoint ≠ none :=
        (startThen_at _ _ _ _).reachable
      have crossed : (first.startElse (context.ifLabel block value rest decl types)
        (context.function.blocks.length + 1) (rest.take decl.params.length)).insertPoint ≠ none := by
        simp [startElse]
      have left : ((second.leave .else_ (context.ifLabel block value rest decl types)).moveTo
        (context.function.blocks.length + 2)).insertPoint ≠ none := by simp
      rw [ihTail left, moveTo_function, leave_names, ihFalse crossed, startElse_names, ihTrue entered,
        startThen_names, ExprList.blockNames, Expr.blockNames, Expr.diverges]
      simp

/-! ## Functions -/

theorem EmitsFunc.names {func : Func I.Instr} {final : BlockContext I.Op} (emits : EmitsFunc I func final) :
    final.function.names = "allocator" :: "return" :: ExprList.blockNames func.exprs := by
  obtain @⟨params, locals, results, inner, paramsOk, localsOk, resultsOk, run, closable, single⟩ := emits
  have start : (startFunc params locals results func.decl : BlockContext I.Op).function.names =
      ["allocator", "return"] := by
    simp [startFunc, openLabel, prologue_names]
  rw [finish_names, moveTo_function, leave_names, run.names (startFunc_at _ _ _ _).reachable, start]
  rfl

/-- The blocks of a translated function are those of its constructs, in order; without a
loop that is reached there is no cycle. -/
theorem visitFunc_blocks {func : Func I.Instr} {final : BlockContext I.Op} (built : visitFunc I func = .ok final) :
    final.function.blocks.map BasicBlock.name = "allocator" :: "return" :: ExprList.blockNames func.exprs ∧
      ("loop_entry" ∉ ExprList.blockNames func.exprs →
        ∀ block, ¬Relation.TransGen final.function.Edge block block) := by
  have emits := visitFunc_ok.mp built
  have names := emits.names
  refine ⟨names, fun noLoops block cycle => ?_⟩
  obtain ⟨rank, climbs⟩ := emits.climbs
  obtain ⟨entry, is, _⟩ := cycle_stops (fun source target leads => (climbs source target leads).imp_right And.left) cycle
  have member : "loop_entry" ∈ final.function.names := List.mem_of_getElem? is
  rw [names] at member
  simp [noLoops] at member

theorem visitFunc_blocks_leaveLoop : ∃ final, visitFunc controlOnly leaveLoop = .ok final ∧
    final.function.blocks.map BasicBlock.name =
      ["allocator", "return", "blk_exit", "loop_entry", "ifblk", "elseblk", "ifblk_exit"] := by
  obtain ⟨final, built⟩ := visitFunc_completes
    (show (visitFunc controlOnly leaveLoop).isOk from by decide +kernel)
  exact ⟨final, built, (visitFunc_blocks built).1⟩

end WasmToLlvm.Block
