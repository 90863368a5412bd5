import WasmToLlvm.Block.AllPlaces
import WasmToLlvm.Block.Start
import WasmToLlvm.Block.ValidRuns
import WasmToLlvm.Block.Retyping

/-!
# Types of the values on the symbolic stack

At every expression that is visited the operands that validation gives it have the LLVM
types of their types, and so have the values that labels carry.
-/

set_option autoImplicit false

namespace WasmToLlvm.Block

open Llvm Wasm Library BlockContext

/-! ## Operands and their values -/

/-- The value has the LLVM type of the operand, whose type is known. -/
def TypedAs (type : Option ValType) (value : Value) : Prop :=
  ∃ known, type = some known ∧ convertType? known = some value.type

/-- So many values that have types. -/
structure Lower (base : Nat) (low : List Value) : Prop where
  length : low.length = base
  known : ∀ value ∈ low, ∃ type, convertType? type = some value.type

/-- The stack has values of the operands' types, above so many others. -/
def TypedStack (base : Nat) (operands : Operands) (stack : List Value) : Prop :=
  ∃ front low, stack = front ++ low ∧ Lower base low ∧ List.Forall₂ TypedAs operands.types front

section TypedStack

variable {base : Nat} {operands rest after : Operands} {stack low front : List Value} {value : Value}
  {types : List ValType} {type : ValType}

theorem typedAs_all : List.Forall₂ TypedAs (types.map some) front ↔ Convert types (front.map Value.type) := by
  rw [Convert, List.forall₂_map_left_iff, List.forall₂_map_right_iff]
  refine ⟨fun all => all.imp fun _ _ is => ?_, fun all => all.imp fun known _ is => ⟨known, rfl, is⟩⟩
  obtain ⟨known, same, is⟩ := is
  rwa [Option.some.inj same]

theorem typedStack_live (lower : Lower base low) (all : Convert types (front.map Value.type)) :
    TypedStack base (Operands.live types) (front ++ low) :=
  ⟨front, low, rfl, lower, typedAs_all.mpr all⟩

theorem TypedStack.pop {type : Option ValType} (typed : TypedStack base operands stack) (live : operands.Live)
    (popped : operands.pop = some (type, rest)) :
    ∃ value below, stack = value :: below ∧ TypedAs type value ∧ TypedStack base rest below := by
  obtain ⟨front, low, rfl, lower, all⟩ := typed
  obtain ⟨types, unreachable⟩ := operands
  cases types with
  | nil =>
      obtain rfl : unreachable = false := live
      cases popped
  | cons top types =>
      obtain ⟨rfl, rfl⟩ := Prod.mk.inj (Option.some.inj popped)
      obtain ⟨value, front, is, others, rfl⟩ := List.forall₂_cons_left_iff.mp all
      exact ⟨value, front ++ low, rfl, is, front, low, rfl, lower, others⟩

theorem TypedStack.popExpect (typed : TypedStack base operands stack) (live : operands.Live)
    (popped : operands.popExpect type = some rest) :
    ∃ value below, stack = value :: below ∧ convertType? type = some value.type ∧ TypedStack base rest below := by
  simp only [Operands.popExpect, Option.bind_eq_bind, Option.bind_eq_some_iff] at popped
  obtain ⟨⟨top, under⟩, pops, matched⟩ := popped
  obtain ⟨value, below, rfl, ⟨known, rfl, is⟩, left⟩ := typed.pop live pops
  split at matched
  · rename_i same
    obtain rfl := Option.some.inj matched
    obtain rfl := Option.some.inj (same.resolve_left (Option.some_ne_none _))
    exact ⟨value, below, rfl, is, left⟩
  · cases matched

theorem TypedStack.popList (typed : TypedStack base operands stack) (live : operands.Live)
    (popped : operands.popList types = some rest) :
    ∃ front below, stack = front ++ below ∧ Convert types.reverse (front.map Value.type) ∧
      TypedStack base rest below := by
  rw [Operands.popList] at popped
  generalize types.reverse = reversed at popped ⊢
  induction reversed generalizing operands stack with
  | nil =>
      obtain rfl := Option.some.inj popped
      exact ⟨[], stack, rfl, .nil, typed⟩
  | cons type reversed ih =>
      rw [List.foldlM_cons, Option.bind_eq_bind, Option.bind_eq_some_iff] at popped
      obtain ⟨middle, top, others⟩ := popped
      obtain ⟨value, under, rfl, is, left⟩ := typed.popExpect live top
      obtain ⟨front, below, rfl, all, left⟩ := ih left (live.popExpect top).live others
      exact ⟨value :: front, below, rfl, .cons is all, left⟩

theorem TypedStack.pushList (typed : TypedStack base operands stack)
    (new : Convert types.reverse (front.map Value.type)) :
    TypedStack base (operands.pushList types) (front ++ stack) := by
  obtain ⟨more, low, rfl, lower, all⟩ := typed
  refine ⟨front ++ more, low, (List.append_assoc _ _ _).symm, lower, ?_⟩
  exact List.rel_append (typedAs_all.mpr new) all

theorem condition_type (is : convertType? .i32 = some value.type) : value.type = .int 32 :=
  (Option.some.inj is).symm

/-- Both arms of a `select` have one type, and so has what it leaves. -/
theorem TypedStack.select {Instr : Type} {context : ValidationContext Instr} {resultType : Option ValType}
    (typed : TypedStack base operands stack) (live : operands.Live)
    (checked : checkExpr context (.select resultType) operands = some after) :
    ∃ condition right left below rest type, stack = condition :: right :: left :: below ∧ condition.type = .int 32 ∧
      right.type = left.type ∧ convertType? type = some left.type ∧ TypedStack base rest below ∧
        after = rest.pushList [type] := by
  cases resultType with
  | none =>
      simp only [checkExpr, Option.bind_eq_bind, Option.bind_eq_some_iff, Option.pure_def] at checked
      obtain ⟨first, top, ⟨right, second⟩, popRight, ⟨left, third⟩, popLeft, type, chosen, pushed⟩ := checked
      obtain rfl := Option.some.inj pushed
      have pops := live.popExpect top
      obtain ⟨condition, under, rfl, is, typed⟩ := typed.popExpect live top
      obtain ⟨rightValue, lower, rfl, ⟨known, rfl, isRight⟩, typed⟩ := typed.pop pops.live popRight
      obtain ⟨leftValue, below, rfl, ⟨known', rfl, isLeft⟩, typed⟩ := typed.pop (pops.live.pop popRight).live popLeft
      rw [selectType] at chosen
      split at chosen
      · cases chosen
      · rename_i same
        obtain rfl : known' = known := Decidable.not_not.mp fun different => same (.inr different)
        obtain rfl := Option.some.inj chosen
        exact ⟨condition, rightValue, leftValue, below, third, known', rfl, condition_type is,
          Option.some.inj (isRight.symm.trans isLeft), isLeft, typed, rfl⟩
  | some type =>
      simp only [checkExpr, Option.bind_eq_bind, Option.bind_eq_some_iff, Option.pure_def] at checked
      obtain ⟨first, top, second, popped, pushed⟩ := checked
      obtain rfl := Option.some.inj pushed
      obtain ⟨condition, under, rfl, is, typed⟩ := typed.popExpect live top
      obtain ⟨front, below, rfl, all, typedRest⟩ := typed.popList (live.popExpect top).live popped
      obtain ⟨_, _, isRight, lower, same⟩ := List.forall₂_cons_left_iff.mp all
      obtain ⟨_, _, isLeft, none, rfl⟩ := List.forall₂_cons_left_iff.mp lower
      obtain rfl := List.forall₂_nil_left_iff.mp none
      obtain ⟨right, behind, rfl, rfl, lowerTypes⟩ := List.map_eq_cons_iff.mp same
      obtain ⟨left, last, rfl, rfl, nothing⟩ := List.map_eq_cons_iff.mp lowerTypes
      obtain rfl := List.map_eq_nil_iff.mp nothing
      exact ⟨condition, right, left, below, second, type, rfl, condition_type is,
        Option.some.inj (isRight.symm.trans isLeft), isLeft, typedRest, rfl⟩

/-- The targets of a `br_table` find the operands as they were. -/
theorem TypedStack.checkTargets {Instr : Type} {context : ValidationContext Instr} {arity : Nat} {targets : List Nat}
    (typed : TypedStack base operands stack) (live : operands.Live)
    (checked : checkTargets context arity operands targets = some after) :
    TypedStack base after stack ∧ ∀ depth ∈ targets, ∃ label front below, context.labels[depth]? = some label ∧
      stack = front ++ below ∧ Convert label.reverse (front.map Value.type) := by
  induction targets generalizing operands with
  | nil =>
      obtain rfl : operands = after := by simpa [Wasm.checkTargets] using checked
      exact ⟨typed, fun _ member => absurd member List.not_mem_nil⟩
  | cons depth targets ih =>
      simp only [Wasm.checkTargets, Option.bind_eq_bind, Option.bind_eq_some_iff] at checked
      obtain ⟨label, found, checked⟩ := checked
      split at checked
      · simp at checked
      · simp only [Option.bind_eq_some_iff] at checked
        obtain ⟨rest, popped, checked⟩ := checked
        obtain ⟨front, below, rfl, all, _⟩ := typed.popList live popped
        obtain ⟨typedAfter, others⟩ := ih typed live checked
        refine ⟨typedAfter, fun other member => ?_⟩
        rcases List.mem_cons.mp member with rfl | member
        · exact ⟨label, front, below, found, rfl, all⟩
        · exact others other member

end TypedStack

/-! ## Labels -/

/-- The phis of a label have the LLVM types of its types. -/
def BreakoutTarget.HasTypes (label : BreakoutTarget) (types : List ValType) : Prop :=
  Convert types (label.phis.map PHINode.type)

variable {I : InstructionSet}

/-- The labels and locals of a translation have the types of validation. -/
structure Conforms (context : BlockContext I.Op) (validation : ValidationContext I.Instr) : Prop where
  labels : List.Forall₂ BreakoutTarget.HasTypes context.blockStack validation.labels
  outermost : ∃ front last, context.blockStack = front ++ [last] ∧ last.HasTypes validation.results
  locals : Convert validation.locals (context.locals.map AllocaInst.allocatedType)

section Conforms

variable {context next : BlockContext I.Op} {validation : ValidationContext I.Instr} {label : BreakoutTarget}
  {types : List ValType} {depth : Nat}

theorem Conforms.same (conforms : Conforms context validation) (labels : next.blockStack = context.blockStack)
    (locals : next.locals = context.locals) : Conforms next validation := by
  obtain ⟨all, outermost, storage⟩ := conforms
  exact ⟨labels ▸ all, labels ▸ outermost, locals ▸ storage⟩

theorem Conforms.push (conforms : Conforms context validation) (labels : next.blockStack = label :: context.blockStack)
    (locals : next.locals = context.locals) (has : label.HasTypes types) :
    Conforms next (validation.withLabel types) where
  labels := labels ▸ .cons has conforms.labels
  outermost := by
    obtain ⟨front, last, stack, results⟩ := conforms.outermost
    exact ⟨label :: front, last, by rw [labels, stack, List.cons_append], results⟩
  locals := locals ▸ conforms.locals

theorem Conforms.hasTypes (conforms : Conforms context validation) (found : context.blockStack[depth]? = some label)
    (valid : validation.labels[depth]? = some types) : label.HasTypes types := by
  obtain ⟨inside, is⟩ := List.getElem?_eq_some_iff.mp found
  obtain ⟨inside', is'⟩ := List.getElem?_eq_some_iff.mp valid
  have has := conforms.labels.get inside inside'
  rwa [List.get_eq_getElem, List.get_eq_getElem, is, is'] at has

theorem Conforms.lastHasTypes (conforms : Conforms context validation) (found : context.blockStack[depth]? = some label)
    (last : depth + 1 = context.blockStack.length) : label.HasTypes validation.results := by
  obtain ⟨front, outermost, stack, has⟩ := conforms.outermost
  rw [stack, List.length_append, List.length_singleton] at last
  obtain rfl : depth = front.length := by omega
  rw [stack, List.getElem?_concat_length] at found
  rwa [← Option.some.inj found]

/-- The values that a branch passes have the types of the phis. -/
theorem entriesFor_typed {Op : Type} {function : Llvm.Function Op} {stack front below : List Value}
    (labelled : LabelPhis function label) (has : label.HasTypes types) (split : stack = front ++ below)
    (all : Convert types.reverse (front.map Value.type)) :
    ∀ entry ∈ entriesFor label.phis stack, ∃ index, function.insts[entry.1]? = some (.phi index entry.2.type) := by
  subst split
  have same : label.phis.reverse.map PHINode.type = front.map Value.type := by
    refine Convert.unique ?_ all
    rw [List.map_reverse]
    exact List.rel_reverse has
  have sized : label.phis.reverse.length = front.length := by simpa using congrArg List.length same
  intro entry member
  obtain ⟨⟨phi, value⟩, inZip, rfl⟩ := List.mem_map.mp member
  obtain ⟨position, bound, pair⟩ := List.mem_iff_getElem.mp inZip
  rw [List.length_zip] at bound
  rw [List.getElem_zip, Prod.mk.injEq] at pair
  have here : position < front.length := by omega
  rw [List.getElem_append_left here] at pair
  obtain ⟨isPhi, isValue⟩ := pair
  have inPhis : phi ∈ label.phis := List.mem_reverse.mp (isPhi ▸ List.getElem_mem _)
  have type : phi.type = value.type := by
    have types := congrArg (·[position]?) same
    rw [List.getElem?_map, List.getElem?_map, List.getElem?_eq_getElem (sized ▸ here),
      List.getElem?_eq_getElem here, isPhi, isValue] at types
    exact Option.some.inj types
  obtain ⟨index, found⟩ := List.mem_iff_getElem?.mp inPhis
  exact ⟨index, type ▸ ((labelled.phis phi.id index phi.type).mpr found).found⟩

end Conforms

/-! ## Steps -/

section Steps

variable {agrees : I.Op → List Ty → Ty → Prop} {results : List Ty} {validation : ValidationContext I.Instr}
  {operands operandsAfter : Operands} {expr : Expr I.Instr} {context next : BlockContext I.Op} {block base : Nat}

/-- The code is typed so far, and so are the values above a base if the insertion point can
be reached. -/
structure TypedContext (agrees : I.Op → List Ty → Ty → Prop) (results : List Ty) (base : Nat) (operands : Operands)
    (context : BlockContext I.Op) : Prop where
  logged : context.Logged
  agreed : context.function.Agrees agrees results
  stack : context.insertPoint ≠ none → TypedStack base operands context.stack

/-- A visit that takes its operands and leaves results of some types. -/
theorem Retypes.typed {visit : Visit I.Op Unit} {after : Straight I.Op} {takes : List Ty} {leaves : List Ty → Prop}
    {below : List Value} (retypes : Retypes agrees context.locals takes (fun _ => leaves) visit) (front : List Value)
    (types : List ValType) (stack : context.stack = front ++ below)
    (fronts : front.map Value.type = takes) (convert : ∀ left, leaves left → Convert types.reverse left)
    (typed : TypedStack base operands below) (ran : visit (visitStart context) = .ok ((), after)) :
    TypedStack base (operands.pushList types) after.stack ∧ ∀ plain ∈ after.code, plain.Agrees agrees := by
  have start : Stacked agrees below takes (visitStart context) :=
    ⟨⟨front, stack, fronts⟩, fun _ member => absurd member List.not_mem_nil⟩
  obtain ⟨_, left, are, ⟨front', stack', rfl⟩, agreed⟩ := retypes.run start rfl ran
  rw [stack']
  exact ⟨typed.pushList (convert _ are), agreed⟩

/-- What a visit leaves has the types of validation, and its code is typed. -/
theorem straightVisit_typed {visit : Visit I.Op Unit} {after : Straight I.Op} (code : straightVisit I expr = some visit)
    (retypes : ∀ instr, expr = .instr instr → I.RetypesAt agrees validation.signature instr)
    (conforms : Conforms context validation) (checked : checkExpr validation expr operands = some operandsAfter)
    (live : operands.Live) (typed : TypedStack base operands context.stack)
    (ran : visit (visitStart context) = .ok ((), after)) :
    TypedStack base operandsAfter after.stack ∧ ∀ plain ∈ after.code, plain.Agrees agrees := by
  cases expr with
  | nop =>
      cases code
      obtain rfl : operands = operandsAfter := by simpa [checkExpr] using checked
      obtain ⟨_, rfl⟩ := Prod.mk.inj (Except.ok.inj ran)
      exact ⟨typed, fun _ member => absurd member List.not_mem_nil⟩
  | drop =>
      cases code
      obtain ⟨type, popped⟩ := checkExpr_drop checked
      obtain ⟨value, below, stack, _, typed⟩ := typed.pop live popped
      obtain ⟨value', below', stack', rfl⟩ := visitDrop_ok.mp ran
      obtain ⟨rfl, rfl⟩ := List.cons.inj (stack.symm.trans stack')
      exact ⟨typed, fun _ member => absurd member List.not_mem_nil⟩
  | select resultType =>
      cases code
      obtain ⟨condition, right, left, below, rest, type, stack, isCondition, same, is, typed, rfl⟩ :=
        typed.select live checked
      have fronts : [condition, right, left].map Value.type = [.int 32, left.type, left.type] := by
        simp [isCondition, same]
      exact visitSelectExpr_retypes.typed [condition, right, left] [type] stack fronts (fun _ are => are ▸ .cons is .nil) typed ran
  | localGet index =>
      cases code
      obtain ⟨type, valid, rfl⟩ := checkExpr_localGet checked
      obtain ⟨inside, rfl⟩ := List.getElem?_eq_some_iff.mp valid
      have count : validation.locals.length = context.locals.length := by simpa using conforms.locals.length_eq
      have is := conforms.locals.get inside (by simpa [← count] using inside)
      rw [List.get_eq_getElem, List.get_eq_getElem, List.getElem_map] at is
      have found := List.getElem?_eq_getElem (count ▸ inside : index < context.locals.length)
      refine (visitLocalGet_retypes found).typed [] [validation.locals[index]] rfl rfl ?_ typed ran
      rintro _ rfl
      exact .cons is .nil
  | localSet index =>
      cases code
      obtain ⟨type, _, popped⟩ := checkExpr_localSet checked
      obtain ⟨value, below, stack, _, typed⟩ := typed.popExpect live popped
      exact (visitLocalSet_retypes index).typed [value] [] stack rfl (fun _ are => are ▸ .nil) typed ran
  | localTee index =>
      cases code
      obtain ⟨type, rest, _, popped, rfl⟩ := checkExpr_localTee checked
      obtain ⟨value, below, stack, is, typed⟩ := typed.popExpect live popped
      exact (visitLocalTee_retypes index).typed [value] [type] stack rfl (fun _ are => are ▸ .cons is .nil) typed ran
  | instr instr =>
      cases code
      obtain ⟨type, rest, found, popped, rfl⟩ := checkExpr_instr checked
      obtain ⟨front, below, stack, takes, typed⟩ := typed.popList live popped
      exact (retypes instr rfl type _ context.locals found takes).typed front type.results stack rfl (fun _ are => are) typed ran
  | _ => cases code

/-- A condition is compared with zero. -/
theorem compared_agrees {value : Value} (is : convertType? .i32 = some value.type) :
    (Inst.plain (.icmp .ne value (.null value.type)) : Inst I.Op).Agrees agrees results := by
  refine ⟨rfl, .inl ?_⟩
  rw [condition_type is]
  rfl

theorem compared_type {Op : Type} (context : BlockContext Op) {value : Value} (is : convertType? .i32 = some value.type) :
    (context.compared value).type = .int 1 := by
  rw [compared, Value.type, condition_type is]
  rfl

theorem addTargets_agrees {context : BlockContext I.Op} (agreed : context.function.Agrees agrees results)
    (switch source i : Nat) {labels : List BreakoutTarget}
    (typed : ∀ label ∈ labels, ∀ entry ∈ entriesFor label.phis context.stack, ∃ index,
      context.function.insts[entry.1]? = some (.phi index entry.2.type)) :
    (context.addTargets switch source labels i).function.Agrees agrees results := by
  induction labels generalizing context i with
  | nil => exact agreed
  | cons label labels ih =>
      refine ih ((agreed.addCase switch i label.target).addIncomings none (typed label List.mem_cons_self)) (i + 1) ?_
      exact fun other member => typed other (List.mem_cons_of_mem _ member)

/-- Every step keeps the types. -/
theorem Step.typed (step : Step I context block expr next) (ahead : Ahead validation base operands context block)
    (retypes : ∀ instr, expr = .instr instr → I.RetypesAt agrees validation.signature instr)
    (conforms : Conforms context validation) (checked : checkExpr validation expr operands = some operandsAfter)
    (typed : TypedContext agrees results base operands context) :
    TypedContext agrees results base operandsAfter next := by
  obtain ⟨here, _, live, _⟩ := ahead
  have stack := typed.stack here.reachable
  have logged := step.logged here typed.logged
  have labelled : ∀ {depth : Nat} {label : BreakoutTarget}, context.blockStack[depth]? = some label →
      LabelPhis context.function label := fun found => typed.logged.labelled _ (List.mem_of_getElem? found)
  cases step with
  | @straight _ visit after code ran =>
      obtain ⟨left, agreed⟩ := straightVisit_typed code retypes conforms checked live stack ran
      refine ⟨logged, typed.agreed.appendAll block fun inst member => ?_, fun _ => left⟩
      obtain ⟨plain, inside, rfl⟩ := List.mem_map.mp member
      exact agreed plain inside
  | unreachable => exact ⟨logged, typed.agreed.append block trivial, fun reached => absurd rfl reached⟩
  | @br depth label branches =>
      obtain ⟨types, rest, valid, popped⟩ := checkExpr_br checked
      obtain ⟨front, below, split, all, _⟩ := stack.popList live popped
      have entries := entriesFor_typed (labelled branches.found) (conforms.hasTypes branches.found valid) split all
      exact ⟨logged, (typed.agreed.addIncomings _ entries).append block trivial, fun reached => absurd rfl reached⟩
  | @return_ depth label last branches =>
      obtain ⟨rest, popped⟩ := checkExpr_return checked
      obtain ⟨front, below, split, all, _⟩ := stack.popList live popped
      have entries := entriesFor_typed (labelled branches.found) (conforms.lastHasTypes branches.found last) split all
      exact ⟨logged, (typed.agreed.addIncomings _ entries).append block trivial, fun reached => absurd rfl reached⟩
  | @brIf depth value rest label top branches =>
      obtain ⟨condition, types, under, popTop, valid, popped, rfl⟩ := checkExpr_brIf checked
      obtain ⟨value', rest', split, is, left⟩ := stack.popExpect live popTop
      obtain ⟨rfl, rfl⟩ := List.cons.inj (top.symm.trans split)
      obtain ⟨front, below, passes, all, lower⟩ := left.popList (live.popExpect popTop).live popped
      have entries := entriesFor_typed (labelled branches.found) (conforms.hasTypes branches.found valid) passes all
      have compared := (typed.agreed.append block (compared_agrees is)).newBlock "brif_next"
      have passed := compared.addIncomings (some block) fun entry member => (entries entry member).imp fun _ found =>
        (((Function.Grows.refl context.function).append block _).newBlock "brif_next").inst found
      exact ⟨logged, passed.append block (compared_type context is), fun _ => by rw [passes]; exact lower.pushList all⟩
  | @brTable default targets value rest label labels top branches all =>
      obtain ⟨condition, types, final, under, popTop, valid, checkedAll, popped⟩ := checkExpr_brTable checked
      obtain ⟨value', rest', split, is, left⟩ := stack.popExpect live popTop
      obtain ⟨rfl, rfl⟩ := List.cons.inj (top.symm.trans split)
      have pops := live.popExpect popTop
      obtain ⟨last, targetsTyped⟩ := left.checkTargets pops.live checkedAll
      obtain ⟨_, _, finalLive, _⟩ := checkTargets_length checkedAll pops.live
      obtain ⟨front, below, split, passes, _⟩ := last.popList finalLive popped
      have entries := entriesFor_typed (labelled branches.found) (conforms.hasTypes branches.found valid) split passes
      have used := (typed.agreed.addIncomings (some block) entries).append block
        (show Inst.Agrees agrees results (.switch value label.target) by rw [Inst.Agrees, condition_type is]; rfl)
      refine ⟨logged, addTargets_agrees used _ _ _ fun other member entry among => ?_, fun reached => absurd ?_ reached⟩
      · obtain ⟨depth, inside, reaches⟩ := Reaches.of_mem all member
        obtain ⟨types, front, below, valid, split, passes⟩ := targetsTyped depth inside
        obtain ⟨index, found⟩ := entriesFor_typed (labelled reaches.found) (conforms.hasTypes reaches.found valid) split
          passes entry among
        exact ⟨index, (((Function.Grows.refl context.function).addIncomings _ _).append block _).inst found⟩
      · simp [startTable]

end Steps

end WasmToLlvm.Block
