import WasmToLlvm.Block.Invariants
import WasmToLlvm.Block.Standing

/-!
# Opaque instructions

Straight-line instructions of which only the signature is known: each is one
operation on its operands, with at most one result.
-/

set_option autoImplicit false

namespace WasmToLlvm.Block

open Llvm Wasm Library

/-- Operands are popped from the last to the first. -/
def Visit.popOperands {Op : Type} : Nat → List Value → Visit Op (List Value)
  | 0, operands => pure operands
  | count + 1, operands => do
      let value ← Visit.popStack
      popOperands count (value :: operands)

def visitOpaque {Instr : Type} (signature : Instr → Option FuncSignature) (instr : Instr) :
    Visit Instr Unit :=
  match signature instr with
  | none => throw (.unsupportedExprType "instr")
  | some type => do
      let operands ← Visit.popOperands type.params.length []
      match type.results with
      | [] => do
          let _ ← Visit.create (.op instr .void operands)
      | [result] =>
          match convertType? result with
          | some converted => do
              let value ← Visit.create (.op instr converted operands)
              Visit.pushStack value
          | none => throw (.cannotConvertType result)
      | _ => throw .multiResult

abbrev opaqueSet (Instr : Type) (signature : Instr → Option FuncSignature) : InstructionSet where
  Instr := Instr
  Op := Instr
  visit := visitOpaque signature

section Opaque

variable {Instr : Type} {signature : Instr → Option FuncSignature} {straight after : Straight Instr}

theorem Visit.popOperands_ok {count : Nat} {before operands : List Value} :
    (Visit.popOperands count before : Visit Instr (List Value)) straight = .ok (operands, after) ↔
      count ≤ straight.stack.length ∧ operands = (straight.stack.take count).reverse ++ before ∧
        after = { straight with stack := straight.stack.drop count } := by
  induction count generalizing before straight with
  | zero =>
      simp only [Visit.popOperands, pure_run, Except.ok.injEq, Prod.mk.injEq, Nat.zero_le, true_and,
        List.take_zero, List.reverse_nil, List.nil_append, List.drop_zero, eq_comm]
  | succ count ih =>
      rw [Visit.popOperands, Visit.popStack_bind_ok]
      simp only [ih]
      constructor
      · rintro ⟨value, rest, top, enough, rfl, rfl⟩
        rw [top]
        exact ⟨Nat.succ_le_succ enough, by simp, rfl⟩
      · rintro ⟨enough, rfl, rfl⟩
        obtain ⟨value, rest, top⟩ := List.exists_cons_of_length_pos
          (Nat.lt_of_lt_of_le (Nat.succ_pos _) enough)
        rw [top] at enough ⊢
        exact ⟨value, rest, rfl, Nat.le_of_succ_le_succ enough, by simp, rfl⟩

/-- The value that an operation leaves on the symbolic stack. -/
def resultValues (id : Nat) (types : List Ty) : List Value :=
  types.map (.inst id)

theorem visitOpaque_ok {instr : Instr} (ran : visitOpaque signature instr straight = .ok ((), after)) :
    ∃ type types, signature instr = some type ∧ type.params.length ≤ straight.stack.length ∧
      Convert type.results types ∧ types.length ≤ 1 ∧
      after = { straight with
        stack := resultValues (straight.next + straight.code.length) types ++
          straight.stack.drop type.params.length
        code := straight.code ++
          [.op instr (types.headD .void) (straight.stack.take type.params.length).reverse] } := by
  rw [visitOpaque] at ran
  cases found : signature instr with
  | none =>
      rw [found] at ran
      cases ran
  | some type =>
  rw [found] at ran
  dsimp only at ran
  obtain ⟨operands, middle, popped, ran⟩ := bind_ok.mp ran
  obtain ⟨enough, rfl, rfl⟩ := Visit.popOperands_ok.mp popped
  rw [List.append_nil] at ran
  match results : type.results with
  | [] =>
      rw [results] at ran
      obtain ⟨_, rfl⟩ := Prod.mk.inj (Except.ok.inj ran)
      exact ⟨type, [], rfl, enough, results ▸ .nil, Nat.zero_le _, rfl⟩
  | [result] =>
      rw [results] at ran
      dsimp only at ran
      cases converted : convertType? result with
      | none =>
          rw [converted] at ran
          cases ran
      | some target =>
          rw [converted] at ran
          obtain ⟨_, rfl⟩ := Prod.mk.inj (Except.ok.inj ran)
          exact ⟨type, [target], rfl, enough, results ▸ .cons converted .nil, Nat.le_refl _, rfl⟩
  | _ :: _ :: _ =>
      rw [results] at ran
      cases ran

theorem opaqueSet_tracks (signature : Instr → Option FuncSignature) :
    (opaqueSet Instr signature).Tracks signature := by
  intro instr type found straight after enough ran
  obtain ⟨actual, types, same, _, all, _, rfl⟩ := visitOpaque_ok ran
  obtain rfl := Option.some.inj (found.symm.trans same)
  exact ⟨_, rfl, by simp [resultValues, all.length_eq]⟩

theorem opaqueSet_scalar (signature : Instr → Option FuncSignature) :
    (opaqueSet Instr signature).Scalar := by
  intro instr straight after fresh ran value member
  obtain ⟨type, types, _, _, all, _, rfl⟩ := visitOpaque_ok ran
  rcases List.mem_append.mp member with new | old
  · obtain ⟨result, inside, rfl⟩ := List.mem_map.mp new
    refine .inr ⟨fun id is => ?_, convert_scalar all result inside⟩
    obtain rfl := Option.some.inj is
    simp [fresh]
  · exact .inl (List.mem_of_mem_drop old)

end Opaque

end WasmToLlvm.Block
