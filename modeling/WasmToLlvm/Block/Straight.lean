import WasmToLlvm.Block.Visit

/-!
# Straight-line expressions

What the visits of expressions without control transfer do to the symbolic stack,
and which code they emit.
-/

set_option autoImplicit false

namespace WasmToLlvm.Block

open Llvm Wasm Library

variable {Op : Type} {straight after : Straight Op}

theorem Visit.popStack_bind_ok {α : Type} {next : Value → Visit Op α} {result : α × Straight Op} :
    (Visit.popStack >>= next) straight = .ok result ↔
      ∃ value rest, straight.stack = value :: rest ∧
        next value { straight with stack := rest } = .ok result := by
  rw [bind_ok]
  obtain ⟨stack, locals, start, code⟩ := straight
  cases stack with
  | nil => simp [Visit.popStack]
  | cons value rest => simp [Visit.popStack]

theorem Visit.localAt_bind_ok {α : Type} {index : Nat} {next : AllocaInst → Visit Op α}
    {result : α × Straight Op} :
    (Visit.localAt index >>= next) straight = .ok result ↔
      ∃ target, straight.locals[index]? = some target ∧ next target straight = .ok result := by
  rw [bind_ok, Visit.localAt]
  cases straight.locals[index]? with
  | none => simp
  | some target => simp

theorem ran_iff {σ : Type} {run : Except Abort (Unit × σ)} {state expected : σ}
    (ran : run = .ok ((), expected)) : run = .ok ((), state) ↔ state = expected := by
  simp [ran, eq_comm]

theorem visitLocalGet_ok {index : Nat} :
    visitLocalGet index straight = .ok ((), after) ↔
      ∃ target, straight.locals[index]? = some target ∧
        after = { straight with
          stack := .inst (straight.next + straight.code.length) target.allocatedType :: straight.stack
          code := straight.code ++ [.load target.allocatedType target.value] } := by
  rw [visitLocalGet, Visit.localAt_bind_ok]
  exact exists_congr fun target => and_congr_right fun _ => ran_iff rfl

theorem visitLocalSet_ok {index : Nat} :
    visitLocalSet index straight = .ok ((), after) ↔
      ∃ value rest target, straight.stack = value :: rest ∧ straight.locals[index]? = some target ∧
        after = { straight with
          stack := rest
          code := straight.code ++ [.store value target.value] } := by
  rw [visitLocalSet, Visit.popStack_bind_ok]
  refine exists_congr fun value => exists_congr fun rest => ?_
  rw [Visit.localAt_bind_ok, exists_and_left]
  exact and_congr_right fun _ => exists_congr fun target => and_congr_right fun _ => ran_iff rfl

theorem visitLocalTee_ok {index : Nat} :
    visitLocalTee index straight = .ok ((), after) ↔
      ∃ value rest target, straight.stack = value :: rest ∧ straight.locals[index]? = some target ∧
        after = { straight with code := straight.code ++ [.store value target.value] } := by
  rw [visitLocalTee, Visit.popStack_bind_ok]
  refine exists_congr fun value => exists_congr fun rest => ?_
  rw [exists_and_left]
  refine and_congr_right fun top => ?_
  rw [bind_run_ok (by rfl), Visit.localAt_bind_ok, top]
  exact exists_congr fun target => and_congr_right fun _ => ran_iff rfl

theorem visitSelectExpr_ok :
    visitSelectExpr straight = .ok ((), after) ↔
      ∃ condition right left rest, straight.stack = condition :: right :: left :: rest ∧
        after = { straight with
          stack := .inst (straight.next + straight.code.length + 1) left.type :: rest
          code := straight.code ++ [.icmp .ne condition (.null condition.type),
            .select (.inst (straight.next + straight.code.length) condition.type.comparison) left
              right] } := by
  rw [visitSelectExpr, Visit.popStack_bind_ok]
  constructor
  · rintro ⟨condition, below, top, ran⟩
    rw [bind_run_ok (by rfl), Visit.popStack_bind_ok] at ran
    obtain ⟨right, lower, second, ran⟩ := ran
    rw [Visit.popStack_bind_ok] at ran
    obtain ⟨left, rest, third, ran⟩ := ran
    refine ⟨condition, right, left, rest, ?_, (ran_iff ?_).mp ran⟩
    · rw [top, show below = right :: lower from second, show lower = left :: rest from third]
    · rw [bind_run_ok (by rfl)]
      simp [Visit.pushStack, Plain.type, Nat.add_assoc]
  · rintro ⟨condition, right, left, rest, stack, rfl⟩
    refine ⟨condition, right :: left :: rest, stack, ?_⟩
    rw [bind_run_ok (by rfl), Visit.popStack_bind_ok]
    refine ⟨right, left :: rest, rfl, ?_⟩
    rw [Visit.popStack_bind_ok]
    refine ⟨left, rest, rfl, ?_⟩
    rw [bind_run_ok (by rfl)]
    simp [Visit.pushStack, Plain.type, Nat.add_assoc]

theorem visitDrop_ok :
    (Visit.popStack >>= fun _ => pure ()) straight = .ok ((), after) ↔
      ∃ value rest, straight.stack = value :: rest ∧ after = { straight with stack := rest } := by
  rw [Visit.popStack_bind_ok]
  exact exists_congr fun value => exists_congr fun rest => and_congr_right fun _ => ran_iff rfl

end WasmToLlvm.Block
