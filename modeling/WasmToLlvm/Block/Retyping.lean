import WasmToLlvm.Block.Operations
import WasmToLlvm.Llvm.Agreement

/-!
# Types on the symbolic stack

`Retypes` says which types a visit takes from the top of the symbolic stack and which ones it
leaves there, and that its code has operands of the types that are required.
-/

set_option autoImplicit false

namespace WasmToLlvm.Block

open Llvm Wasm Library

variable {Op : Type} {agrees : Op → List Ty → Ty → Prop}

/-- The types of the values on top of the stack. -/
structure Stacked (agrees : Op → List Ty → Ty → Prop) (low : List Value) (types : List Ty) (straight : Straight Op) :
    Prop where
  stack : ∃ front, straight.stack = front ++ low ∧ front.map Value.type = types
  code : ∀ plain ∈ straight.code, plain.Agrees agrees

/-- From some types on top of the stack to others. The locals do not change. -/
structure Retypes {α : Type} (agrees : Op → List Ty → Ty → Prop) (locals : List AllocaInst) (takes : List Ty)
    (leaves : α → List Ty → Prop) (visit : Visit Op α) : Prop where
  run : ∀ {low : List Value} {before after : Straight Op} {result : α}, Stacked agrees low takes before →
    before.locals = locals → visit before = .ok (result, after) → after.locals = locals ∧
      ∃ types, leaves result types ∧ Stacked agrees low types after

section Rules

variable {α β : Type} {visit : Visit Op α} {next : α → Visit Op β} {locals : List AllocaInst} {takes types : List Ty}
  {type : Ty} {middle leaves' : α → List Ty → Prop} {leaves : β → List Ty → Prop}

theorem Retypes.bind (first : Retypes agrees locals takes middle visit)
    (rest : ∀ value types, middle value types → Retypes agrees locals types leaves (next value)) :
    Retypes agrees locals takes leaves (visit >>= next) where
  run stacked same ran := by
    obtain ⟨value, state, ranFirst, ranRest⟩ := bind_ok.mp ran
    obtain ⟨same', types, between, stacked'⟩ := first.run stacked same ranFirst
    exact (rest value types between).run stacked' same' ranRest

theorem Retypes.mono (retypes : Retypes agrees locals takes middle visit)
    (weaker : ∀ value types, middle value types → leaves' value types) : Retypes agrees locals takes leaves' visit where
  run stacked same ran := by
    obtain ⟨same', types, after, stacked'⟩ := retypes.run stacked same ran
    exact ⟨same', types, weaker _ _ after, stacked'⟩

theorem retypes_pure {value : α} (holds : leaves' value takes) :
    Retypes agrees locals takes leaves' (pure value : Visit Op α) where
  run stacked same ran := by
    obtain ⟨rfl, rfl⟩ := Prod.mk.inj (Except.ok.inj ran)
    exact ⟨same, _, holds, stacked⟩

theorem retypes_throw (error : Abort) : Retypes agrees locals takes leaves' (throw error : Visit Op α) where
  run _ _ ran := by cases ran

theorem Retypes.map {function : α → β} (first : Retypes agrees locals takes middle visit)
    (result : ∀ value types, middle value types → leaves (function value) types) :
    Retypes agrees locals takes leaves (function <$> visit) := by
  rw [map_eq_pure_bind]
  exact first.bind fun value types between => retypes_pure (result value types between)

/-- An instruction is a value of its type. -/
theorem retypes_create (plain : Plain Op) (agreed : plain.Agrees agrees) :
    Retypes agrees locals types (fun value after => value.type = plain.type ∧ after = types) (Visit.create plain) where
  run stacked same ran := by
    obtain ⟨rfl, rfl⟩ := Prod.mk.inj (Except.ok.inj ran)
    refine ⟨same, _, ⟨rfl, rfl⟩, stacked.stack, fun other member => ?_⟩
    rcases List.mem_append.mp member with old | last
    · exact stacked.code other old
    · rwa [List.mem_singleton.mp last]

theorem popStack_retypes : Retypes agrees locals (type :: types) (fun value after => value.type = type ∧ after = types)
    (Visit.popStack : Visit Op Value) where
  run stacked same ran := by
    obtain ⟨front, stack, fronts⟩ := stacked.stack
    obtain ⟨value, rest, rfl, isValue, restTypes⟩ := List.map_eq_cons_iff.mp fronts
    rw [Visit.popStack, stack, List.cons_append] at ran
    obtain ⟨rfl, rfl⟩ := Prod.mk.inj (Except.ok.inj ran)
    exact ⟨same, types, ⟨isValue, rfl⟩, ⟨rest, rfl, restTypes⟩, stacked.code⟩

theorem pushStack_retypes (value : Value) : Retypes agrees locals types (fun _ after => after = value.type :: types)
    (Visit.pushStack value : Visit Op Unit) where
  run stacked same ran := by
    obtain ⟨_, rfl⟩ := Prod.mk.inj (Except.ok.inj ran)
    obtain ⟨front, stack, fronts⟩ := stacked.stack
    refine ⟨same, _, rfl, ⟨value :: front, ?_, ?_⟩, stacked.code⟩
    · show value :: _ = _
      rw [stack]
      rfl
    · rw [List.map_cons, fronts]

theorem localAt_retypes (index : Nat) : Retypes agrees locals types
    (fun target after => locals[index]? = some target ∧ after = types) (Visit.localAt index : Visit Op AllocaInst) where
  run stacked same ran := by
    rw [Visit.localAt] at ran
    split at ran
    · rename_i target found
      obtain ⟨rfl, rfl⟩ := Prod.mk.inj (Except.ok.inj ran)
      exact ⟨same, _, ⟨same ▸ found, rfl⟩, stacked⟩
    · cases ran

end Rules

section Visits

variable {locals : List AllocaInst} {types : List Ty} {type : Ty} {index : Nat} {target : AllocaInst}

theorem visitLocalGet_retypes (found : locals[index]? = some target) : Retypes agrees locals types
    (fun _ after => after = target.allocatedType :: types) (visitLocalGet index : Visit Op Unit) := by
  refine (localAt_retypes index).bind ?_
  rintro other _ ⟨found', rfl⟩
  obtain rfl := Option.some.inj (found.symm.trans found')
  refine (retypes_create (.load target.allocatedType target.value) rfl).bind ?_
  rintro loaded _ ⟨isLoaded, rfl⟩
  exact (pushStack_retypes loaded).mono fun _ _ same => by rw [same, isLoaded]; rfl

theorem visitLocalSet_retypes (index : Nat) : Retypes agrees locals (type :: types) (fun _ after => after = types)
    (visitLocalSet index : Visit Op Unit) := by
  refine popStack_retypes.bind ?_
  rintro value _ ⟨_, rfl⟩
  refine (localAt_retypes index).bind ?_
  rintro target _ ⟨_, rfl⟩
  refine (retypes_create (.store value target.value) rfl).bind ?_
  rintro _ _ ⟨_, rfl⟩
  exact retypes_pure rfl

theorem visitLocalTee_retypes (index : Nat) : Retypes agrees locals (type :: types) (fun _ after => after = type :: types)
    (visitLocalTee index : Visit Op Unit) := by
  refine popStack_retypes.bind ?_
  rintro value _ ⟨rfl, rfl⟩
  refine (pushStack_retypes value).bind ?_
  rintro _ _ rfl
  refine (localAt_retypes index).bind ?_
  rintro target _ ⟨_, rfl⟩
  refine (retypes_create (.store value target.value) rfl).bind ?_
  rintro _ _ ⟨_, rfl⟩
  exact retypes_pure rfl

/-- The arms have one type. -/
theorem visitSelectExpr_retypes : Retypes agrees locals (.int 32 :: type :: type :: types)
    (fun _ after => after = type :: types) (visitSelectExpr : Visit Op Unit) := by
  refine popStack_retypes.bind ?_
  rintro value _ ⟨isValue, rfl⟩
  have accepted : (Plain.icmp .ne value (.null value.type) : Plain Op).Agrees agrees :=
    ⟨rfl, .inl (by rw [isValue]; rfl)⟩
  refine (retypes_create _ accepted).bind ?_
  rintro chosen _ ⟨isChosen, rfl⟩
  refine popStack_retypes.bind ?_
  rintro right _ ⟨isRight, rfl⟩
  refine popStack_retypes.bind ?_
  rintro left _ ⟨isLeft, rfl⟩
  have single : chosen.type = .int 1 := by rw [isChosen, Plain.type, isValue]; rfl
  refine (retypes_create (.select chosen left right) ⟨isLeft.trans isRight.symm, .inl single⟩).bind ?_
  rintro result _ ⟨isResult, rfl⟩
  exact (pushStack_retypes result).mono fun _ _ same => by rw [same, isResult, ← isLeft]; rfl

end Visits

/-- The types of the signature are those on the stack. -/
def InstructionSet.RetypesAt (I : InstructionSet) (agrees : I.Op → List Ty → Ty → Prop)
    (signature : I.Instr → Option FuncSignature) (instr : I.Instr) : Prop :=
  ∀ type takes locals, signature instr = some type → Convert type.params.reverse takes →
    Retypes agrees locals takes (fun _ after => Convert type.results.reverse after) (I.visit instr)

end WasmToLlvm.Block
