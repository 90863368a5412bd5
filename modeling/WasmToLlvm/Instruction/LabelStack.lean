import WasmToLlvm.Block.LabelStack
import WasmToLlvm.Instruction.StackEffect

/-!
# The stack of labels and the instructions

Where no instruction that loses the stack is visited, `blockStack` mirrors the
control stack of validation and constructs leave what is below their operands alone.
-/

set_option autoImplicit false

namespace WasmToLlvm.Instruction

open Llvm Wasm Block Library BlockContext

section Functions

variable {environment : Environment} {func : Func Instr}

theorem visitInstr_tracksAt {instr : Instr} (tracked : !instr.desynchronises) :
    (instructions environment).TracksAt (Instr.signature environment) instr := by
  intro type found straight after enough ran
  have exact_ : instr.desynchronises = false := by simpa using tracked
  obtain ⟨popped, pushed, kept, before, count, behind, pushes⟩ := (visitInstr_effect found exact_).run ran
  refine ⟨pushed, ?_, pushes⟩
  rw [behind, before, ← count, List.drop_left]

/-- In a validated function the labels mirror the control stack of validation at every
expression that is visited, and every construct leaves the labels and what is below its
operands as they were, if none of the instructions visited loses the stack. -/
theorem visitFunc_framing (validated : Validated (Instr.signature environment) func)
    (visited : ExprList.visitedAll (fun instr => !instr.desynchronises) func.exprs) :
    ∀ place, FuncVisits (instructions environment) func place →
      Framing (Instr.signature environment) func place := by
  intro place visits
  have tracks : ∀ instr : Instr, !instr.desynchronises →
      (instructions environment).TracksAt (Instr.signature environment) instr :=
    fun instr => visitInstr_tracksAt
  exact visits.framing validated tracks visited

end Functions

/-- No module around a function. -/
def alone : Environment := ⟨false, [], [], [], []⟩

/-- A block that is left with a value from two places. -/
def choosingBlock : Expr Instr :=
  .block ⟨[], [.i32]⟩ [.localGet 0, .localGet 0, .brIf 0, .drop, .instr (.const (.i32 9)), .br 0]

def choosing : Func Instr where
  decl := ⟨[.i32], [.i32]⟩
  localTypes := []
  exprs := [.instr (.const (.i32 7)), choosingBlock, .instr (.binary .i32Add)]

theorem visitFunc_framing_choosing :
    ∃ place, FuncVisits (instructions alone) choosing place ∧ place.expr = choosingBlock ∧
      place.context.stack = [.int 32 7] ∧ Framing (Instr.signature alone) choosing place := by
  have around : (stacksAround (instructions alone) choosing (.instr (.const (.i32 7))) choosingBlock
      ⟨.empty, none, [], [], [], []⟩).toOption.map Prod.fst =
        some ([.int 32 7], [.inst 3 (.int 32), .int 32 7]) := by decide +kernel
  obtain ⟨place, entry, final, visits, block, before, _⟩ := stacksAround_visits rfl rfl around
  exact ⟨place, visits, block, before, visitFunc_framing (by decide +kernel) (by decide +kernel) place visits⟩

/-- A block that takes the value in front of it for its own. -/
def takingBlock : Expr Instr :=
  .block ⟨[], []⟩ [.instr (.const (.f32 0)), .instr (.convert .i32TruncSatF32S), .drop,
    .instr (.const (.i32 9)), .unreachable]

def taking : Func Instr where
  decl := ⟨[], [.i32]⟩
  localTypes := []
  exprs := [.instr (.const (.i32 7)), takingBlock]

/-- The value in front of the block is 7, and behind it 9. -/
theorem framing_lost :
    Validated (Instr.signature alone) taking ∧
    (∃ final, visitFunc (instructions alone) taking = .ok final) ∧
    ∃ place, FuncVisits (instructions alone) taking place ∧
      ¬ Framing (Instr.signature alone) taking place := by
  refine ⟨by decide +kernel, visitFunc_completes (by decide +kernel), ?_⟩
  have around : (stacksAround (instructions alone) taking (.instr (.const (.i32 7))) takingBlock
      ⟨.empty, none, [], [], [], []⟩).toOption.map Prod.fst = some ([.int 32 7], [.int 32 9]) := by decide +kernel
  obtain ⟨place, entry, final, visits, block, before, ran, after⟩ := stacksAround_visits rfl rfl around
  refine ⟨place, visits, fun framing => ?_⟩
  obtain ⟨_, kept⟩ := framing.keeps entry final ran
  obtain ⟨_, below⟩ := kept [] (by rw [block]; rfl)
  rw [before, after] at below
  exact absurd below (by decide)

end WasmToLlvm.Instruction
