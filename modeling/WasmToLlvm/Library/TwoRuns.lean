import Mathlib.Data.List.Forall2
import WasmToLlvm.Library.Effects

/-!
# Two runs

Two computations that run side by side from related states. Where both succeed, their
values and their states are related again.
-/

set_option autoImplicit false

namespace WasmToLlvm.Library

variable {σ ε α α' β β' : Type}

structure Parallel (related : σ → σ → Prop) (same : α → α' → Prop) (before before' : σ)
    (emit : StateT σ (Except ε) α) (emit' : StateT σ (Except ε) α') : Prop where
  run : ∀ {value : α} {after : σ} {value' : α'} {after' : σ}, emit before = .ok (value, after) →
    emit' before' = .ok (value', after') → same value value' ∧ related after after'

namespace Parallel

variable {related : σ → σ → Prop} {same : α → α' → Prop} {same' : β → β' → Prop} {before before' : σ}
  {emit other : StateT σ (Except ε) α} {emit' other' : StateT σ (Except ε) α'}

theorem bind {next : α → StateT σ (Except ε) β} {next' : α' → StateT σ (Except ε) β'}
    (first : Parallel related same before before' emit emit')
    (rest : ∀ {value value' middle middle'}, same value value' → related middle middle' →
      Parallel related same' middle middle' (next value) (next' value')) :
    Parallel related same' before before' (emit >>= next) (emit' >>= next') where
  run ran ran' := by
    obtain ⟨value, middle, ranFirst, ranRest⟩ := bind_ok.mp ran
    obtain ⟨value', middle', ranFirst', ranRest'⟩ := bind_ok.mp ran'
    obtain ⟨sameValue, relatedMiddle⟩ := first.run ranFirst ranFirst'
    exact (rest sameValue relatedMiddle).run ranRest ranRest'

theorem pure {value : α} {value' : α'} (sameValue : same value value') (start : related before before') :
    Parallel related same before before' (pure value : StateT σ (Except ε) α)
      (pure value' : StateT σ (Except ε) α') where
  run ran ran' := by
    cases ran
    cases ran'
    exact ⟨sameValue, start⟩

theorem throw (error : ε) : Parallel related same before before' (throw error) emit' where
  run ran := by cases ran

theorem get {next : σ → StateT σ (Except ε) β} {next' : σ → StateT σ (Except ε) β'}
    (rest : Parallel related same' before before' (next before) (next' before')) :
    Parallel related same' before before' (get >>= next) (get >>= next') :=
  ⟨rest.run⟩

theorem modify {update update' : σ → σ} (relates : related (update before) (update' before')) :
    Parallel related (fun _ _ => True) before before' (modify update : StateT σ (Except ε) PUnit)
      (modify update' : StateT σ (Except ε) PUnit) where
  run ran ran' := by
    cases ran
    cases ran'
    exact ⟨trivial, relates⟩

/-- Both runs take the same branch. -/
theorem ite {condition condition' : Prop} [Decidable condition] [Decidable condition']
    (agree : condition ↔ condition') (first : condition → Parallel related same before before' emit emit')
    (second : ¬condition → Parallel related same before before' other other') :
    Parallel related same before before' (if condition then emit else other)
      (if condition' then emit' else other') := by
  by_cases holds : condition
  · rw [if_pos holds, if_pos (agree.mp holds)]
    exact first holds
  · rw [if_neg holds, if_neg fun holds' => holds (agree.mpr holds')]
    exact second holds

/-- Neither run stops at its check. -/
theorem guard {condition condition' : Prop} [Decidable condition] [Decidable condition'] {error error' : ε}
    (rest : Parallel related same before before' emit emit') :
    Parallel related same before before' (if condition then (MonadExcept.throw error : StateT σ (Except ε) α) else emit)
      (if condition' then (MonadExcept.throw error' : StateT σ (Except ε) α') else emit') where
  run ran ran' := by
    split at ran
    · cases ran
    · split at ran'
      · cases ran'
      · exact rest.run ran ran'

/-- Loops over lists whose elements correspond. -/
theorem forM {γ γ' : Type} {corresponds : γ → γ' → Prop} {list : List γ} {list' : List γ'}
    {visit : γ → StateT σ (Except ε) PUnit} {visit' : γ' → StateT σ (Except ε) PUnit}
    (lists : List.Forall₂ corresponds list list') (start : related before before')
    (visits : ∀ {element element' before before'}, corresponds element element' → related before before' →
      Parallel related (fun _ _ => True) before before' (visit element) (visit' element')) :
    Parallel related (fun _ _ => True) before before' (list.forM visit) (list'.forM visit') := by
  induction lists generalizing before before' with
  | nil => exact pure trivial start
  | cons here _ ih => exact (visits here start).bind fun _ relatedMiddle => ih relatedMiddle

end Parallel

end WasmToLlvm.Library
