import WasmToLlvm.Block.Ssa
import WasmToLlvm.Instruction.Dataflow
import WasmToLlvm.Instruction.LabelStack

/-!
# Static single assignment and the instructions

Where no instruction that loses the stack is visited, definitions dominate their uses, and
what is popped is defined above the block that instructions are inserted into.
-/

set_option autoImplicit false

namespace WasmToLlvm.Instruction

open Llvm Wasm Block Library BlockContext

/-- In a translated function definitions dominate their uses, and at every expression that
is visited the operands dominate the insertion point, if none of the instructions visited
loses the stack. -/
theorem visitFunc_ssa {environment : Environment} {func : Func Instr} {final : BlockContext (instructions environment).Op}
    (validated : Validated (Instr.signature environment) func)
    (visited : ExprList.visitedAll (fun instr => !instr.desynchronises) func.exprs)
    (built : visitFunc (instructions environment) func = .ok final) :
    final.function.SSA ∧ ∀ place, FuncVisits (instructions environment) func place →
      Founded (Instr.signature environment) func final.function.Dominates final.function place := by
  have emits := visitFunc_ok.mp built
  have traced := emits.history.logged.traced
  have feeds : ∀ instr : Instr, !instr.desynchronises →
      (instructions environment).FeedsAt (Instr.signature environment) instr := by
    intro instr tracked
    exact visitInstr_feedsAt environment (by simpa using tracked)
  obtain ⟨parent, order, settles, founded⟩ := emits.settles validated feeds visited
  refine ⟨settles.ssa traced, fun place visits => (founded place visits).mono (.refl _) fun _ _ above => ?_⟩
  exact settles.layout.dominates traced above

/-- Nested constructs that carry values. -/
def carrying : Func Instr where
  decl := ⟨[.i32], [.i32]⟩
  localTypes := []
  exprs := [.localGet 0, .loop ⟨[], [.i32]⟩ [.instr (.const (.i32 2)), .localGet 0,
    .if_ ⟨[.i32], [.i32]⟩ [.localGet 0, .brIf 1, .localTee 0] [.drop, .localGet 0, .br 2]],
    .instr (.binary .i32Add)]

theorem visitFunc_ssa_carrying : ∃ final, visitFunc (instructions alone) carrying = .ok final ∧ final.function.SSA := by
  obtain ⟨final, built⟩ := visitFunc_completes
    (show (visitFunc (instructions alone) carrying).isOk from by decide +kernel)
  exact ⟨final, built, (visitFunc_ssa (by decide +kernel) (by decide +kernel) built).1⟩

/-- The second arm leaves nothing, and so the result of the first one is passed on. -/
def leaking : Func Instr where
  decl := ⟨[], [.i32]⟩
  localTypes := []
  exprs := [.instr (.const (.i32 0)), .if_ ⟨[], [.i32]⟩ [.unreachable]
    [.instr (.const (.f32 1)), .instr (.convert .i32TruncSatF32S)]]

theorem ssa_lost :
    Validated (Instr.signature alone) leaking ∧ ∃ final, visitFunc (instructions alone) leaking = .ok final ∧
      (∀ entry ∈ final.function.incoming, entry.block ≠ none) ∧ ¬final.function.SSA := by
  refine ⟨by decide +kernel, ?_⟩
  have facts : (visitFunc (instructions alone) leaking).toOption.map (fun final =>
      (final.function.incoming, final.function.successors 0, final.function.body 0, final.function.body 3)) =
        some ([⟨3, .inst 3 (.int 32), some 3⟩, ⟨0, .inst 3 (.int 32), some 4⟩], [2, 3], [1, 2], [5]) := by
    decide +kernel
  cases built : visitFunc (instructions alone) leaking with
  | error error =>
      rw [built] at facts
      cases facts
  | ok final =>
      rw [built] at facts
      obtain ⟨incoming, facts⟩ := Prod.mk.inj (Option.some.inj facts)
      obtain ⟨arms, bodies⟩ := Prod.mk.inj facts
      obtain ⟨entryBody, elseBody⟩ := Prod.mk.inj bodies
      refine ⟨final, rfl, by rw [incoming]; decide, fun ssa => ?_⟩
      -- the way to the second arm passes only the entry block, and the phi stands in the exit block
      have walk : Walk final.function.Edge 0 3 [3, 0] := .step .start (by rw [Function.Edge, arms]; decide)
      obtain ⟨home, inside, dominates⟩ := ssa.entries ⟨3, .inst 3 (.int 32), some 3⟩
        (by rw [incoming]; exact List.mem_cons_self) 3 rfl ⟨_, walk⟩ 3 rfl
      rcases List.mem_pair.mp (dominates _ walk) with rfl | rfl
      · rw [elseBody] at inside
        exact absurd inside (by decide)
      · rw [entryBody] at inside
        exact absurd inside (by decide)

end WasmToLlvm.Instruction
