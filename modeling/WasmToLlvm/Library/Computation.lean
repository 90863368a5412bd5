import Mathlib.Tactic.Common

/-!
# Computations with a state and failure

Rules for computations `StateT σ (Except ε) α`: what a successful run of a
sequence consists of, and how a sequence runs from its first operation on.
-/

set_option autoImplicit false

namespace WasmToLlvm.Library

variable {σ ε α β : Type}

/-- A successful sequence is a successful first part and a successful rest. -/
theorem bind_ok {first : StateT σ (Except ε) α} {next : α → StateT σ (Except ε) β}
    {state : σ} {result : β × σ} :
    (first >>= next) state = .ok result ↔
      ∃ value middle, first state = .ok (value, middle) ∧ next value middle = .ok result := by
  show (first state >>= fun pair => next pair.1 pair.2) = .ok result ↔ _
  cases first state with
  | error error => simp [bind, Except.bind]
  | ok pair =>
      obtain ⟨value, middle⟩ := pair
      simp [bind, Except.bind]

@[simp] theorem pure_run (value : α) (state : σ) :
    (pure value : StateT σ (Except ε) α) state = .ok (value, state) := rfl

@[simp] theorem get_run (state : σ) :
    (get : StateT σ (Except ε) σ) state = .ok (state, state) := rfl

@[simp] theorem set_run (state replacement : σ) :
    (set replacement : StateT σ (Except ε) PUnit) state = .ok (⟨⟩, replacement) := rfl

@[simp] theorem modify_run (update : σ → σ) (state : σ) :
    (modify update : StateT σ (Except ε) PUnit) state = .ok (⟨⟩, update state) := rfl

@[simp] theorem throw_run (error : ε) (state : σ) :
    (throw error : StateT σ (Except ε) α) state = .error error := rfl

/-! Running a sequence from its first operation on. -/

@[simp] theorem pure_bind_run (value : α) (next : α → StateT σ (Except ε) β) (state : σ) :
    ((pure value : StateT σ (Except ε) α) >>= next) state = next value state := rfl

@[simp] theorem get_bind_run (next : σ → StateT σ (Except ε) β) (state : σ) :
    ((get : StateT σ (Except ε) σ) >>= next) state = next state state := rfl

@[simp] theorem set_bind_run (replacement : σ) (next : PUnit → StateT σ (Except ε) β)
    (state : σ) :
    ((set replacement : StateT σ (Except ε) PUnit) >>= next) state = next ⟨⟩ replacement := rfl

@[simp] theorem modify_bind_run (update : σ → σ) (next : PUnit → StateT σ (Except ε) β)
    (state : σ) :
    ((modify update : StateT σ (Except ε) PUnit) >>= next) state = next ⟨⟩ (update state) := rfl

@[simp] theorem throw_bind_run (error : ε) (next : α → StateT σ (Except ε) β) (state : σ) :
    ((throw error : StateT σ (Except ε) α) >>= next) state = .error error := rfl

@[simp] theorem ite_run (condition : Prop) [Decidable condition]
    (left right : StateT σ (Except ε) α) (state : σ) :
    (if condition then left else right) state = if condition then left state else right state := by
  split <;> rfl

theorem bind_run_ok {first : StateT σ (Except ε) α} {next : α → StateT σ (Except ε) β}
    {state middle : σ} {value : α} (ran : first state = .ok (value, middle)) :
    (first >>= next) state = next value middle := by
  show (first state >>= fun pair => next pair.1 pair.2) = _
  rw [ran]
  rfl

theorem bind_run_error {first : StateT σ (Except ε) α} {next : α → StateT σ (Except ε) β}
    {state : σ} {error : ε} (ran : first state = .error error) :
    (first >>= next) state = .error error := by
  show (first state >>= fun pair => next pair.1 pair.2) = _
  rw [ran]
  rfl

end WasmToLlvm.Library
