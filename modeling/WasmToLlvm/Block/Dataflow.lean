import WasmToLlvm.Block.Operations

/-!
# Where the operands of straight-line code come from

A visit takes values from the top of the symbolic stack and uses them, constants and its
own results. `Feeds` says so of a computation; it composes along binds.
-/

set_option autoImplicit false

namespace WasmToLlvm.Llvm

/-- The value is not the result of an instruction, or of one that is allowed, or of one
of so many from `next` on. -/
def Value.Given (allowed : Nat → Prop) (next count : Nat) (value : Value) : Prop :=
  ∀ id, value.instId? = some id → allowed id ∨ next ≤ id ∧ id < next + count

/-- The value is a constant or one of some others. -/
def Value.Among (values : List Value) (value : Value) : Prop :=
  value.instId? = none ∨ value ∈ values

section Values

variable {allowed : Nat → Prop} {next count count' : Nat} {value : Value} {values values' : List Value}

theorem Value.Given.mono (given : value.Given allowed next count) (more : count ≤ count') :
    value.Given allowed next count' := by
  intro id is
  refine (given id is).imp_right fun here => ⟨here.1, ?_⟩
  exact Nat.lt_of_lt_of_le here.2 (Nat.add_le_add_left more next)

theorem Value.Among.given (among : value.Among values)
    (given : ∀ value ∈ values, value.Given allowed next count) : value.Given allowed next count := by
  rcases among with constant | member
  · intro id is
    rw [constant] at is
    cases is
  · exact given value member

@[simp] theorem among_append : value.Among (values ++ values') ↔ value.Among values ∨ value.Among values' := by
  rw [Value.Among, Value.Among, Value.Among, List.mem_append, or_or_distrib_left]

@[simp] theorem among_nil : value.Among [] ↔ value.instId? = none := by
  simp [Value.Among]

@[simp] theorem among_cons {first : Value} : value.Among (first :: values) ↔ value = first ∨ value.Among values := by
  rw [Value.Among, Value.Among, List.mem_cons, or_left_comm]

@[simp] theorem among_int (width number : Nat) : (Value.int width number).Among values := .inl rfl

@[simp] theorem among_null (type : Ty) : (Value.null type).Among values := .inl rfl

@[simp] theorem among_undef (type : Ty) : (Value.undef type).Among values := .inl rfl

@[simp] theorem among_allOnes (type : Ty) : (Value.allOnes type).Among values := .inl rfl

@[simp] theorem among_splat (lanes width number : Nat) : (Value.splat lanes width number).Among values := .inl rfl

@[simp] theorem among_float (bits : Nat) : (Value.float bits).Among values := .inl rfl

@[simp] theorem among_double (bits : Nat) : (Value.double bits).Among values := .inl rfl

@[simp] theorem among_global (ref : GlobalRef) : (Value.global ref).Among values := .inl rfl

end Values

end WasmToLlvm.Llvm

namespace WasmToLlvm.Block

open Llvm Library

/-- The values in the result of a computation. -/
class Returns (α : Type) where
  values : α → List Value

instance : Returns Unit := ⟨fun _ => []⟩
instance : Returns Ty := ⟨fun _ => []⟩
instance : Returns Nat := ⟨fun _ => []⟩
instance : Returns (List Ty) := ⟨fun _ => []⟩
instance : Returns Value := ⟨fun value => [value]⟩
instance : Returns (Option Value) := ⟨Option.toList⟩
instance : Returns (List Value) := ⟨id⟩
instance : Returns (Value × Option Ty) := ⟨fun pair => [pair.1]⟩
instance : Returns AllocaInst := ⟨fun target => [target.value]⟩

@[simp] theorem values_unit (nothing : Unit) : Returns.values nothing = [] := rfl
@[simp] theorem values_type (type : Ty) : Returns.values type = [] := rfl
@[simp] theorem values_nat (number : Nat) : Returns.values number = [] := rfl
@[simp] theorem values_types (types : List Ty) : Returns.values types = [] := rfl
@[simp] theorem values_value (value : Value) : Returns.values value = [value] := rfl
@[simp] theorem values_option (value? : Option Value) : Returns.values value? = value?.toList := rfl
@[simp] theorem values_list (values : List Value) : Returns.values values = values := rfl
@[simp] theorem values_pair (pair : Value × Option Ty) : Returns.values pair = [pair.1] := rfl
@[simp] theorem values_alloca (target : AllocaInst) : Returns.values target = [target.value] := rfl

variable {Op : Type}

/-- Every instruction uses what is allowed, and the code in front of it. -/
def Fed (allowed : Nat → Prop) (next : Nat) (code : List (Plain Op)) : Prop :=
  ∀ (position : Nat) (plain : Plain Op), code[position]? = some plain →
    ∀ value ∈ plain.operands, value.Given allowed next position

/-- The values on top of the stack, the storage of locals and some other values are given. -/
structure Supplied (allowed : Nat → Prop) (low : List Value) (count : Nat) (values : List Value)
    (straight : Straight Op) : Prop where
  stack : ∃ front, straight.stack = front ++ low ∧ front.length = count ∧
    ∀ value ∈ front, value.Given allowed straight.next straight.code.length
  values : ∀ value ∈ values, value.Given allowed straight.next straight.code.length
  locals : ∀ alloca ∈ straight.locals, allowed alloca.id
  code : Fed allowed straight.next straight.code

/-- A computation that only uses so many values on top of the stack, locals and some other
values, and replaces the former by values that it made from these. -/
structure Feeds {α : Type} [Returns α] (takes leaves : Nat) (values : List Value) (visit : Visit Op α) : Prop where
  run : ∀ {allowed : Nat → Prop} {low : List Value} {before after : Straight Op} {result : α},
    Supplied allowed low takes values before → visit before = .ok (result, after) →
      after.next = before.next ∧ before.code.length ≤ after.code.length ∧
        Supplied allowed low leaves (Returns.values result) after

section Rules

variable {α β : Type} [Returns α] [Returns β] {visit : Visit Op α} {rest : α → Visit Op β}
  {takes middle leaves count : Nat} {values values' : List Value}

/-- A bind, with what is known of the first value. -/
theorem Feeds.bindKnown {known : α → Prop} (first : Feeds takes middle values visit)
    (holds : ∀ {before value after}, visit before = .ok (value, after) → known value)
    (then_ : ∀ value, known value → Feeds middle leaves (Returns.values value ++ values) (rest value)) :
    Feeds takes leaves values (visit >>= rest) where
  run {allowed low before after result} supplied ran := by
    obtain ⟨value, state, ranFirst, ranRest⟩ := bind_ok.mp ran
    obtain ⟨next, more, between⟩ := first.run supplied ranFirst
    have given : ∀ other ∈ Returns.values value ++ values, other.Given allowed state.next state.code.length := by
      intro other member
      rcases List.mem_append.mp member with new | old
      · exact between.values other new
      · rw [next]
        exact (supplied.values other old).mono more
    obtain ⟨next', more', last⟩ := (then_ value (holds ranFirst)).run ⟨between.stack, given, between.locals, between.code⟩ ranRest
    exact ⟨next'.trans next, Nat.le_trans more more', last⟩

theorem Feeds.bind (first : Feeds takes middle values visit)
    (then_ : ∀ value, Feeds middle leaves (Returns.values value ++ values) (rest value)) :
    Feeds takes leaves values (visit >>= rest) :=
  first.bindKnown (fun _ => trivial) fun value (_ : True) => then_ value

/-- Code that leaves the stack alone in front of a computation. -/
theorem Feeds.then (first : Feeds takes takes values visit)
    (then_ : ∀ value, Feeds takes leaves (Returns.values value ++ values) (rest value)) :
    Feeds takes leaves values (visit >>= rest) :=
  first.bind then_

theorem feeds_pure {value : α} (known : ∀ other ∈ Returns.values value, other.Among values) :
    Feeds count count values (pure value : Visit Op α) where
  run supplied ran := by
    obtain ⟨rfl, rfl⟩ := Prod.mk.inj (Except.ok.inj ran)
    exact ⟨rfl, Nat.le_refl _, supplied.stack, fun other member => (known other member).given supplied.values,
      supplied.locals, supplied.code⟩

@[simp] theorem feeds_throw (error : Abort) : Feeds takes leaves values (throw error : Visit Op α) where
  run _ ran := by cases ran

theorem Feeds.map {function : α → β} (feeds : Feeds takes leaves values visit)
    (known : ∀ value, ∀ other ∈ Returns.values (function value), other.Among (Returns.values value)) :
    Feeds takes leaves values (function <$> visit) := by
  rw [map_eq_pure_bind]
  refine feeds.bind fun value => feeds_pure fun other member => ?_
  exact among_append.mpr (.inl (known value other member))

theorem feeds_create {plain : Plain Op} (known : ∀ value ∈ plain.operands, value.Among values) :
    Feeds count count values (Visit.create plain) where
  run {allowed low before after result} supplied ran := by
    obtain ⟨rfl, rfl⟩ := Prod.mk.inj (Except.ok.inj ran)
    obtain ⟨front, stack, counted, given⟩ := supplied.stack
    have more : before.code.length ≤ (before.code ++ [plain]).length := by simp
    refine ⟨rfl, more, ⟨front, stack, counted, fun value member => (given value member).mono more⟩, ?_,
      supplied.locals, ?_⟩
    · intro value member
      obtain rfl := List.mem_singleton.mp member
      intro id is
      obtain rfl := Option.some.inj is
      simp
    · intro position other found value member
      rcases Nat.lt_or_ge position before.code.length with old | new
      · rw [List.getElem?_append_left old] at found
        exact supplied.code position other found value member
      · rw [List.getElem?_append_right new, List.getElem?_singleton] at found
        split at found
        · rename_i last
          obtain rfl := Option.some.inj found
          obtain rfl : position = before.code.length := by omega
          exact (known value member).given supplied.values
        · cases found

theorem popStack_feeds : Feeds (count + 1) count values (Visit.popStack : Visit Op Value) where
  run {allowed low before after result} supplied ran := by
    obtain ⟨front, stack, counted, given⟩ := supplied.stack
    obtain ⟨top, front, rfl⟩ := List.exists_cons_of_length_eq_add_one counted
    rw [Visit.popStack, stack, List.cons_append] at ran
    obtain ⟨rfl, rfl⟩ := Prod.mk.inj (Except.ok.inj ran)
    refine ⟨rfl, Nat.le_refl _, ⟨front, rfl, by simpa using counted, ?_⟩, ?_, supplied.locals,
      supplied.code⟩
    · exact fun value member => given value (List.mem_cons_of_mem _ member)
    · intro value member
      obtain rfl := List.mem_singleton.mp member
      exact given _ List.mem_cons_self

theorem pushStack_feeds {value : Value} (known : value.Among values) :
    Feeds count (count + 1) values (Visit.pushStack value : Visit Op Unit) where
  run {allowed low before after result} supplied ran := by
    obtain ⟨_, rfl⟩ := Prod.mk.inj (Except.ok.inj ran)
    obtain ⟨front, stack, counted, given⟩ := supplied.stack
    refine ⟨rfl, Nat.le_refl _, ⟨value :: front, congrArg (value :: ·) stack, by simp [counted], ?_⟩, ?_,
      supplied.locals, supplied.code⟩
    · intro other member
      rcases List.mem_cons.mp member with rfl | member
      · exact known.given supplied.values
      · exact given other member
    · exact fun other member => nomatch member

theorem localAt_feeds (index : Nat) : Feeds count count values (Visit.localAt index : Visit Op AllocaInst) where
  run {allowed low before after result} supplied ran := by
    unfold Visit.localAt at ran
    split at ran
    · rename_i target found
      obtain ⟨rfl, rfl⟩ := Prod.mk.inj (Except.ok.inj ran)
      refine ⟨rfl, Nat.le_refl _, supplied.stack, fun value member => ?_, supplied.locals, supplied.code⟩
      obtain rfl := List.mem_singleton.mp member
      intro id is
      obtain rfl := Option.some.inj is
      exact .inl (supplied.locals _ (List.mem_of_getElem? found))
    · cases ran

end Rules

/-! ## Straight-line expressions -/

section Straight

variable {values : List Value}

theorem visitLocalGet_feeds (index : Nat) : Feeds 0 1 values (visitLocalGet index : Visit Op Unit) :=
  (localAt_feeds index).bind fun _ => (feeds_create (by simp [Plain.operands])).bind fun _ =>
    pushStack_feeds (by simp)

theorem visitLocalSet_feeds (index : Nat) : Feeds 1 0 values (visitLocalSet index : Visit Op Unit) :=
  popStack_feeds.bind fun _ => (localAt_feeds index).bind fun _ =>
    (feeds_create (by simp [Plain.operands])).bind fun _ => feeds_pure (by simp)

theorem visitLocalTee_feeds (index : Nat) : Feeds 1 1 values (visitLocalTee index : Visit Op Unit) :=
  popStack_feeds.bind fun _ => (pushStack_feeds (by simp)).bind fun _ => (localAt_feeds index).bind fun _ =>
    (feeds_create (by simp [Plain.operands])).bind fun _ => feeds_pure (by simp)

theorem visitSelectExpr_feeds : Feeds 3 1 values (visitSelectExpr : Visit Op Unit) :=
  popStack_feeds.bind fun _ => (feeds_create (by simp [Plain.operands])).bind fun _ =>
    popStack_feeds.bind fun _ => popStack_feeds.bind fun _ =>
      (feeds_create (by simp [Plain.operands])).bind fun _ => pushStack_feeds (by simp)

end Straight

/-! ## Instruction sets -/

/-- Where the instruction is translated, its operands are taken from the stack, and what it
leaves is made from them. -/
def InstructionSet.FeedsAt (I : InstructionSet) (signature : I.Instr → Option Wasm.FuncSignature) (instr : I.Instr) :
    Prop :=
  ∀ type, signature instr = some type → Feeds type.params.length type.results.length [] (I.visit instr)

end WasmToLlvm.Block
