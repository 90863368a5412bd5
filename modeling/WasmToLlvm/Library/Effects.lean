import Mathlib.Algebra.Group.Defs
import WasmToLlvm.Library.Computation

/-!
# Effects of computations

What a computation does to its state, up to a relation that is graded by a monoid: the
grade says what is added, and the grades of a sequence are multiplied. What holds in the
rounds of a loop.
-/

set_option autoImplicit false

namespace WasmToLlvm.Library

structure Grading (σ M : Type) [Monoid M] where
  relates : M → σ → σ → Prop
  refl : ∀ state, relates 1 state state
  trans : ∀ {first second third grade grade'}, relates grade first second →
    relates grade' second third → relates (grade * grade') first third

instance (priority := high) unitMonoid : Monoid Unit where
  toMul := ⟨fun _ _ => ()⟩
  toOne := ⟨()⟩
  mul_assoc _ _ _ := rfl
  one_mul _ := rfl
  mul_one _ := rfl
  npow _ _ := ()
  npow_zero _ := rfl
  npow_succ _ _ := rfl

/-- A preorder has a single grade. -/
def Grading.ofPreorder {σ : Type} (relates : σ → σ → Prop) (refl : ∀ state, relates state state)
    (trans : ∀ {first second third}, relates first second → relates second third → relates first third) :
    Grading σ Unit where
  relates _ := relates
  refl := refl
  trans := trans

/-- Nothing changes. -/
def Grading.same {σ : Type} : Grading σ Unit :=
  .ofPreorder Eq (fun _ => rfl) Eq.trans

variable {σ ε α β M : Type} [Monoid M]

/-- Every successful run from the state relates it to the state afterwards. -/
structure Effect (grading : Grading σ M) (before : σ) (emit : StateT σ (Except ε) α) (grade : M) : Prop where
  run : ∀ {value after}, emit before = .ok (value, after) → grading.relates grade before after

namespace Effect

variable {grading : Grading σ M} {before : σ} {emit emit' : StateT σ (Except ε) α}
  {next : α → StateT σ (Except ε) β} {grade grade' : M}

theorem bind (first : Effect grading before emit grade)
    (rest : ∀ {value middle}, emit before = .ok (value, middle) →
      Effect grading middle (next value) grade') :
    Effect grading before (emit >>= next) (grade * grade') where
  run ran := by
    obtain ⟨value, middle, ranFirst, ranRest⟩ := bind_ok.mp ran
    exact grading.trans (first.run ranFirst) ((rest ranFirst).run ranRest)

/-- A first part that adds nothing. -/
theorem skip (first : Effect grading before emit 1)
    (rest : ∀ {value middle}, emit before = .ok (value, middle) →
      Effect grading middle (next value) grade) :
    Effect grading before (emit >>= next) grade := by
  have whole := first.bind rest
  rwa [one_mul] at whole

/-- A rest that adds nothing. -/
theorem then_ (first : Effect grading before emit grade)
    (rest : ∀ {value middle}, emit before = .ok (value, middle) →
      Effect grading middle (next value) 1) :
    Effect grading before (emit >>= next) grade := by
  have whole := first.bind rest
  rwa [mul_one] at whole

/-- What has no effect in any grading leaves the state as it is. -/
theorem same {after : σ} {value : α} (reads : Effect .same before emit ())
    (ran : emit before = .ok (value, after)) : after = before :=
  (reads.run ran).symm

theorem pure (value : α) : Effect grading before (pure value : StateT σ (Except ε) α) 1 where
  run ran := by
    cases ran
    exact grading.refl before

theorem throw (error : ε) : Effect grading before (throw error : StateT σ (Except ε) α) grade where
  run ran := by cases ran

theorem get {next : σ → StateT σ (Except ε) β} (rest : Effect grading before (next before) grade) :
    Effect grading before (get >>= next) grade :=
  ⟨rest.run⟩

theorem modify {update : σ → σ} (relates : grading.relates grade before (update before)) :
    Effect grading before (modify update : StateT σ (Except ε) PUnit) grade where
  run ran := by
    cases ran
    exact relates

theorem ite {condition : Prop} [Decidable condition]
    (first : condition → Effect grading before emit grade)
    (second : ¬condition → Effect grading before emit' grade) :
    Effect grading before (if condition then emit else emit') grade := by
  split
  · exact first ‹_›
  · exact second ‹_›

/-- A loop over a list adds what its rounds add. -/
theorem forM {list : List α} {visit : α → StateT σ (Except ε) PUnit} {each : α → M}
    (visits : ∀ element ∈ list, ∀ before, Effect grading before (visit element) (each element)) :
    Effect grading before (list.forM visit) ((list.map each).prod) := by
  induction list generalizing before with
  | nil => exact pure _
  | cons element list ih =>
      rw [List.map_cons, List.prod_cons]
      refine (visits element List.mem_cons_self before).bind fun _ => ih fun other member => ?_
      exact visits other (List.mem_cons_of_mem _ member)

/-- A loop whose rounds add nothing. -/
theorem forM_one {list : List α} {visit : α → StateT σ (Except ε) PUnit}
    (visits : ∀ element ∈ list, ∀ before, Effect grading before (visit element) 1) :
    Effect grading before (list.forM visit) 1 := by
  induction list generalizing before with
  | nil => exact pure _
  | cons element list ih =>
      refine (visits element List.mem_cons_self before).skip fun _ => ih fun other member => ?_
      exact visits other (List.mem_cons_of_mem _ member)

end Effect

/-! ## Rounds of a loop -/

/-- Something holds of each element and the state in which its round begins. -/
def EachRound (visit : α → StateT σ (Except ε) PUnit) (holds : σ → α → Prop) : List α → σ → Prop
  | [], _ => True
  | element :: rest, before => holds before element ∧
      ∀ after, visit element before = .ok ((), after) → EachRound visit holds rest after

section Rounds

variable {visit : α → StateT σ (Except ε) PUnit} {holds holds' : σ → α → Prop} {list : List α} {before after : σ}

theorem forM_cons_ok {element : α} :
    (element :: list).forM visit before = .ok ((), after) ↔
      ∃ middle, visit element before = .ok ((), middle) ∧ list.forM visit middle = .ok ((), after) := by
  show (visit element >>= fun _ => list.forM visit) before = .ok ((), after) ↔ _
  rw [bind_ok]
  constructor
  · intro ran
    obtain ⟨_, middle, first, rest⟩ := ran
    exact ⟨middle, first, rest⟩
  · intro ran
    obtain ⟨middle, first, rest⟩ := ran
    exact ⟨(), middle, first, rest⟩

/-- Two properties that agree wherever a round is completed. The invariant holds in each
of the states. -/
theorem EachRound.congr {invariant : σ → Prop}
    (keeps : ∀ {before after element}, element ∈ list → invariant before →
      visit element before = .ok ((), after) → invariant after)
    (same : ∀ {before after element}, element ∈ list → invariant before →
      visit element before = .ok ((), after) → (holds before element ↔ holds' before element))
    (start : invariant before) (ran : list.forM visit before = .ok ((), after)) :
    EachRound visit holds list before ↔ EachRound visit holds' list before := by
  induction list generalizing before with
  | nil => exact Iff.rfl
  | cons element rest ih =>
      obtain ⟨middle, first, ranRest⟩ := forM_cons_ok.mp ran
      have sameRest := ih (fun member => keeps (List.mem_cons_of_mem _ member))
        (fun member => same (List.mem_cons_of_mem _ member)) (keeps List.mem_cons_self start first) ranRest
      unfold EachRound
      refine and_congr (same List.mem_cons_self start first) (forall₂_congr fun other firstOther => ?_)
      cases first.symm.trans firstOther
      exact sameRest

end Rounds

end WasmToLlvm.Library
