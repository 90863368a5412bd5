import WasmToLlvm.Instruction.Emission
import WasmToLlvm.Llvm.Evaluation

/-!
# Running the code of a visit

A visit and the execution of the code it creates, taken together, with the rules by which
the code of an instruction is put together from single operations.
-/

set_option autoImplicit false

namespace WasmToLlvm.Instruction

open Llvm Wasm Block Library

variable {α β : Type} {floats : Floats} {space : Space} {emit : Emit α} {next : α → Emit β}

/-! ## Code is only added -/

/-- A computation that keeps the code so far; it may pop and push. -/
structure Appends (emit : Emit α) : Prop where
  run : ∀ {before value after}, emit before = .ok (value, after) →
    after.next = before.next ∧ before.code <+: after.code

theorem Emits.appends {known : α → Prop} (emits : Emits emit known) : Appends emit where
  run ran := ⟨(emits.run ran).1.next, (emits.run ran).1.code⟩

theorem Appends.bind (first : Appends emit) (rest : ∀ value, Appends (next value)) :
    Appends (emit >>= next) where
  run ran := by
    obtain ⟨value, middle, ranFirst, ranRest⟩ := bind_ok.mp ran
    obtain ⟨sameFirst, prefixFirst⟩ := first.run ranFirst
    obtain ⟨sameRest, prefixRest⟩ := (rest value).run ranRest
    exact ⟨sameRest.trans sameFirst, prefixFirst.trans prefixRest⟩

theorem popStack_appends : Appends (Visit.popStack : Emit Value) where
  run ran := by
    rw [Visit.popStack] at ran
    split at ran
    · obtain ⟨rfl, rfl⟩ := Prod.mk.inj (Except.ok.inj ran)
      exact ⟨rfl, List.prefix_refl _⟩
    · cases ran

theorem pushStack_appends (value : Value) : Appends (Visit.pushStack value : Emit Unit) where
  run ran := by
    obtain ⟨_, rfl⟩ := Prod.mk.inj (Except.ok.inj ran)
    exact ⟨rfl, List.prefix_refl _⟩

/-! ## Visit and execution -/

/-- A point of a visit at which the code so far has been executed. -/
structure Setting where
  straight : Straight Operation
  machine : Machine

/-- No code yet, some values on the stack, and memory filled with zeros. -/
def Setting.start (stack : List Value) : Setting :=
  ⟨⟨stack, [], 0, []⟩, ⟨[], fun _ => none, fun _ => 0⟩⟩

namespace Setting

variable (setting : Setting)

/-- The identity of the next instruction. -/
def nextId : Nat := setting.straight.next + setting.straight.code.length

end Setting

/-- A visit, with the execution of the code it adds. It has no result where the translation
stops or the execution is undefined. -/
def runCode (floats : Floats) (space : Space) (emit : Emit α) (setting : Setting) :
    Option (α × Setting) :=
  match emit setting.straight with
  | .error _ => none
  | .ok (value, after) =>
      (executeAll floats space setting.machine setting.nextId
        (after.code.drop setting.straight.code.length)).map fun machine => (value, ⟨after, machine⟩)

theorem runCode_ok {setting : Setting} {value : α} {after : Straight Operation}
    (ran : emit setting.straight = .ok (value, after)) :
    runCode floats space emit setting =
      (executeAll floats space setting.machine setting.nextId
        (after.code.drop setting.straight.code.length)).map fun machine =>
          (value, ⟨after, machine⟩) := by
  rw [runCode, ran]

theorem runCode_error {setting : Setting} {error : Abort} (stops : emit setting.straight = .error error) :
    runCode floats space emit setting = none := by
  rw [runCode, stops]

/-- A sequence runs as its parts do, one after the other. -/
theorem runCode_bind (first : Appends emit) (rest : ∀ value, Appends (next value))
    {setting : Setting} :
    runCode floats space (emit >>= next) setting =
      (runCode floats space emit setting).bind fun result =>
        runCode floats space (next result.1) result.2 := by
  obtain ⟨straight, machine⟩ := setting
  cases ranFirst : emit straight with
  | error error =>
      rw [runCode_error (bind_run_error ranFirst), runCode_error ranFirst]
      rfl
  | ok pair =>
      obtain ⟨value, middle⟩ := pair
      obtain ⟨same, code, whole⟩ := first.run ranFirst
      have here : straight.next + straight.code.length + code.length =
          middle.next + middle.code.length := by
        rw [← whole, same, List.length_append, Nat.add_assoc]
      have head : runCode floats space emit ⟨straight, machine⟩ =
          (executeAll floats space machine (straight.next + straight.code.length) code).map
            fun machine => (value, ⟨middle, machine⟩) := by
        rw [runCode_ok ranFirst, ← whole, List.drop_left, Setting.nextId]
      rw [head, Option.bind_map]
      cases ranRest : next value middle with
      | error error =>
          rw [runCode_error ((bind_run_ok ranFirst).trans ranRest)]
          exact (Option.bind_eq_none_iff.mpr fun machine' _ => runCode_error ranRest).symm
      | ok pair =>
          obtain ⟨value', after⟩ := pair
          obtain ⟨_, more, whole'⟩ := (rest value).run ranRest
          have split : after.code.drop straight.code.length = code ++ more := by
            rw [← whole', ← whole, List.append_assoc, List.drop_left]
          rw [runCode_ok ((bind_run_ok ranFirst).trans ranRest), split, executeAll_append,
            Option.map_bind, Setting.nextId, here]
          refine Option.bind_congr fun machine' _ => ?_
          have tail : runCode floats space (next value) ⟨middle, machine'⟩ = _ := runCode_ok ranRest
          rw [← whole', List.drop_left, Setting.nextId] at tail
          exact tail.symm

/-! ## Values at a point -/

/-- The value has the type and stands for the lanes, and no instruction to come changes
that. -/
structure Holds (space : Space) (setting : Setting) (value : Value) (type : Ty) (datum : Datum) :
    Prop where
  type : value.type = type
  datum : value.datum space setting.machine = some datum
  older : ∀ {id instType}, value = .inst id instType → id < setting.nextId

/-- A later point with the same symbolic stack and memory; values keep their meaning. -/
structure Later (setting setting' : Setting) : Prop where
  stack : setting'.straight.stack = setting.straight.stack
  bytes : setting'.machine.bytes = setting.machine.bytes
  arguments : setting'.machine.arguments = setting.machine.arguments
  next : setting.nextId ≤ setting'.nextId
  registers : ∀ id < setting.nextId,
    setting'.machine.registers id = setting.machine.registers id

theorem Later.refl (setting : Setting) : Later setting setting :=
  ⟨rfl, rfl, rfl, Nat.le_refl _, fun _ _ => rfl⟩

theorem Later.trans {first second third : Setting} (left : Later first second)
    (right : Later second third) : Later first third where
  stack := right.stack.trans left.stack
  bytes := right.bytes.trans left.bytes
  arguments := right.arguments.trans left.arguments
  next := Nat.le_trans left.next right.next
  registers id older :=
    (right.registers id (Nat.lt_of_lt_of_le older left.next)).trans (left.registers id older)

section Values

variable {setting setting' : Setting} {value : Value} {type : Ty} {datum : Datum}

theorem Holds.later (holds : Holds space setting value type datum) (later : Later setting setting') :
    Holds space setting' value type datum where
  type := holds.type
  datum := by
    have before := holds.datum
    cases value with
    | inst id instType => exact (later.registers id (holds.older rfl)).trans before
    | arg index argType =>
        rw [Value.datum] at before ⊢
        rwa [later.arguments]
    | _ => exact before
  older isInst := Nat.lt_of_lt_of_le (holds.older isInst) later.next

/-- The values on the stack do not matter for what a value stands for. -/
theorem Holds.stack (holds : Holds space setting value type datum) (stack : List Value) :
    Holds space ⟨{ setting.straight with stack := stack }, setting.machine⟩ value type datum :=
  ⟨holds.type, holds.datum, holds.older⟩

/-- A value that is no instruction holds at every point. -/
theorem Holds.constant (isType : value.type = type) (stands : value.datum space setting.machine = some datum)
    (constant : ∀ id instType, value ≠ .inst id instType) : Holds space setting value type datum :=
  ⟨isType, stands, fun isInst => absurd isInst (constant _ _)⟩

end Values

/-! ## Code with an outcome -/

/-- The code gives a value of the type with these lanes, or it is undefined. -/
def Computes (floats : Floats) (space : Space) (setting : Setting) (emit : Emit Value) (type : Ty) :
    Option Datum → Prop
  | none => runCode floats space emit setting = none
  | some datum => ∃ value setting', runCode floats space emit setting = some (value, setting') ∧
      Later setting setting' ∧ Holds space setting' value type datum

section Outcomes

variable {setting : Setting} {code : Emit Value} {type type' : Ty} {outcome : Option Datum}

theorem Computes.done {value : Value} {datum : Datum} (holds : Holds space setting value type datum) :
    Computes floats space setting (pure value) type (some datum) := by
  refine ⟨value, setting, ?_, .refl _, holds⟩
  have nothing : runCode floats space (pure value : Emit Value) setting = _ := runCode_ok rfl
  rwa [List.drop_length, executeAll, Option.map_some] at nothing

/-- The code behind a part that has run. -/
theorem Computes.after {next : Value → Emit Value} {value : Value} {setting' : Setting}
    (ran : runCode floats space code setting = some (value, setting')) (later : Later setting setting')
    (appends : Quiet code) (rest : ∀ value, Quiet (next value))
    (computes : Computes floats space setting' (next value) type' outcome) :
    Computes floats space setting (code >>= next) type' outcome := by
  have whole : runCode floats space (code >>= next) setting = _ :=
    runCode_bind appends.appends fun value => (rest value).appends
  rw [ran, Option.bind_some] at whole
  cases outcome with
  | none => exact whole.trans computes
  | some datum =>
      obtain ⟨value', last, ran', later', holds'⟩ := computes
      exact ⟨value', last, whole.trans ran', later.trans later', holds'⟩

theorem Computes.bind {next : Value → Emit Value} {result : Datum → Option Datum}
    (first : Computes floats space setting code type outcome) (appends : Quiet code)
    (rest : ∀ value, Quiet (next value))
    (then_ : ∀ {value setting' datum}, outcome = some datum → Later setting setting' →
      Holds space setting' value type datum →
        Computes floats space setting' (next value) type' (result datum)) :
    Computes floats space setting (code >>= next) type' (outcome.bind result) := by
  cases outcome with
  | none =>
      have whole : runCode floats space (code >>= next) setting = _ :=
        runCode_bind appends.appends fun value => (rest value).appends
      rw [show runCode floats space code setting = none from first] at whole
      exact whole
  | some datum =>
      obtain ⟨value, middle, ran, later, holds⟩ := first
      exact .after ran later appends rest (then_ rfl later holds)

/-- A sequence whose first part is defined. -/
theorem Computes.andThen {next : Value → Emit Value} {datum : Datum}
    (first : Computes floats space setting code type (some datum)) (appends : Quiet code)
    (rest : ∀ value, Quiet (next value))
    (then_ : ∀ {value setting'}, Later setting setting' → Holds space setting' value type datum →
      Computes floats space setting' (next value) type' outcome) :
    Computes floats space setting (code >>= next) type' outcome := by
  have whole : Computes floats space setting (code >>= next) type' ((some datum).bind fun _ => outcome) := by
    apply first.bind appends rest
    intro value setting' datum' same later holds
    cases same
    exact then_ later holds
  exact whole

end Outcomes

/-! ## The functions of the builder -/

section Builder

variable {setting : Setting} {left right value : Value} {type type' : Ty} {x y : Datum}

/-- An instruction that gives its value to a new register. -/
theorem create_computes {plain : Plain Operation} {outcome : Option Datum}
    (executes : plain.execute floats space setting.machine setting.nextId =
      outcome.map (setting.machine.define setting.nextId)) :
    Computes floats space setting (Visit.create plain) plain.type outcome := by
  have ran : runCode floats space (Visit.create plain) setting = _ := runCode_ok rfl
  rw [List.drop_left, executeAll, executes] at ran
  cases outcome with
  | none => exact ran
  | some datum =>
      refine ⟨_, _, ran, ⟨rfl, rfl, rfl, ?_, ?_⟩, rfl, Machine.define_same _ _ _, ?_⟩
      · simp [Setting.nextId, ← Nat.add_assoc]
      · intro id older
        exact Machine.define_other _ _ (Nat.ne_of_lt older)
      · intro id instType isInst
        cases isInst
        simp [Setting.nextId, ← Nat.add_assoc]

/-- An operation that does not use memory. -/
theorem createOp_computes {operation : Operation} {operands : List Value} {data : List Datum}
    (stand : operands.mapM (Value.datum space setting.machine) = some data)
    (pure_ : operation.isMemory = false) :
    Computes floats space setting (createOp operation type operands) type
      (operation.eval floats (operands.map Value.type) type data) := by
  refine create_computes ?_
  rw [Plain.execute_op pure_, stand, Option.bind_some]

theorem createBinary_computes {operator : BinaryOperator} (isLeft : Holds space setting left type x)
    (isRight : Holds space setting right type' y) :
    Computes floats space setting (createBinary operator left right) type
      (x.zip (operator.lane floats type) y) := by
  have operation : Operation.eval floats (.binary operator) ([left, right].map Value.type) left.type
      [x, y] = x.zip (operator.lane floats type) y := by
    rw [← isLeft.type]
    exact Operation.eval_binary
  rw [createBinary, ← operation, ← isLeft.type]
  apply createOp_computes
  · simp [isLeft.datum, isRight.datum]
  · rfl

theorem createICmp_computes {predicate : IntPredicate} (isLeft : Holds space setting left type x)
    (isRight : Holds space setting right type' y) :
    Computes floats space setting (createICmp predicate left right) type.comparison
      (x.zip (Lane.lift fun x y => some (some (bit (predicate.holds type.laneBits x y)))) y) := by
  have isType : (Plain.icmp predicate left right : Plain Operation).type = type.comparison := by
    rw [Plain.type, isLeft.type]
  rw [createICmp, ← isType]
  apply create_computes
  rw [Plain.execute_icmp isLeft.datum isRight.datum, isLeft.type]

theorem createFCmp_computes {predicate : FloatPredicate} (isLeft : Holds space setting left type x)
    (isRight : Holds space setting right type' y) :
    Computes floats space setting (createFCmp predicate left right) type.comparison
      (x.zip (Lane.lift fun x y => some (some (bit (floats.compare predicate type.laneBits x y)))) y) := by
  have operation : Operation.eval floats (.fcmp predicate) ([left, right].map Value.type)
      type.comparison [x, y] =
        x.zip (Lane.lift fun x y => some (some (bit (floats.compare predicate type.laneBits x y)))) y := by
    rw [← isLeft.type]
    exact Operation.eval_fcmp
  rw [createFCmp, isLeft.type, ← operation]
  apply createOp_computes
  · simp [isLeft.datum, isRight.datum]
  · rfl

theorem createSelect_computes {condition : Value} {conditionType : Ty} {test : Datum}
    (isCondition : Holds space setting condition conditionType test)
    (isLeft : Holds space setting left type x) (isRight : Holds space setting right type' y) :
    Computes floats space setting (createSelect condition left right) type
      (selectDatum test x y conditionType.isVector) := by
  have isType : (Plain.select condition left right : Plain Operation).type = type := by
    rw [Plain.type, isLeft.type]
  rw [createSelect, ← isType]
  apply create_computes
  rw [Plain.execute_select isCondition.datum isLeft.datum isRight.datum, isCondition.type]

/-- A cast to the type that a value has is no instruction. -/
theorem createCast_same {kind : CastOp} (isValue : Holds space setting value type x) :
    Computes floats space setting (createCast kind value type) type (some x) := by
  rw [createCast, if_pos isValue.type]
  exact .done isValue

theorem createOp_cast_computes {kind : CastOp} (isValue : Holds space setting value type x) :
    Computes floats space setting (createOp (.cast kind) type' [value]) type'
      (some (kind.datum floats type type' x)) := by
  have operation : Operation.eval floats (.cast kind) ([value].map Value.type) type' [x] =
      some (kind.datum floats type type' x) := by
    rw [← isValue.type]
    exact Operation.eval_cast
  rw [← operation]
  apply createOp_computes
  · simp [isValue.datum]
  · rfl

theorem createCast_computes {kind : CastOp} (isValue : Holds space setting value type x)
    (different : type ≠ type') :
    Computes floats space setting (createCast kind value type') type'
      (some (kind.datum floats type type' x)) := by
  rw [createCast, if_neg (isValue.type ▸ different)]
  exact createOp_cast_computes isValue

/-- A call of an intrinsic on any number of arguments. -/
theorem createCall_computes {intrinsic : Intrinsic} {arguments : List Value} {data : List Datum}
    (stand : arguments.mapM (Value.datum space setting.machine) = some data) :
    Computes floats space setting (createCall intrinsic type arguments) type
      (intrinsic.datum floats type data) := by
  rw [createCall]
  exact createOp_computes stand rfl

theorem createExtractElement_computes {lanes index : Nat} {element : Ty}
    (isVector : Holds space setting value (.vector lanes element) x) (small : index < 2 ^ 64) :
    Computes floats space setting (createExtractElement value index) element
      (some [x[index]?.join]) := by
  rw [createExtractElement, isVector.type]
  have operation : Operation.eval floats .extractElement ([value, .int 64 index].map Value.type) element
      [x, [some (index % 2 ^ 64)]] = some [x[index]?.join] := by
    rw [Nat.mod_eq_of_lt small]
    exact Operation.eval_extractElement
  rw [← operation]
  apply createOp_computes
  · simp [isVector.datum]
  · rfl

theorem createInsertElement_computes {index : Nat} {element : Lane}
    (isVector : Holds space setting left type x) (isElement : Holds space setting right type' [element])
    (inside : index < x.length) (small : index < 2 ^ 64) :
    Computes floats space setting (createInsertElement left right index) type
      (some (x.set index element)) := by
  have operation : Operation.eval floats .insertElement ([left, right, .int 64 index].map Value.type)
      type [x, [element], [some (index % 2 ^ 64)]] = some (x.set index element) := by
    rw [Nat.mod_eq_of_lt small]
    exact Operation.eval_insertElement inside
  rw [createInsertElement, isVector.type, ← operation]
  apply createOp_computes
  · simp [isVector.datum, isElement.datum]
  · rfl

theorem createShuffleVector_computes {mask : List (Option Nat)}
    (isLeft : Holds space setting left type x) (isRight : Holds space setting right type' y) :
    Computes floats space setting (createShuffleVector left right mask)
      (.vector mask.length type.scalar)
      (some (mask.map fun entry => entry.bind fun index => (x ++ y)[index]?.join)) := by
  rw [createShuffleVector, isLeft.type]
  have operation : Operation.eval floats (.shuffleVector mask) ([left, right].map Value.type)
      (.vector mask.length type.scalar) [x, y] =
        some (mask.map fun entry => entry.bind fun index => (x ++ y)[index]?.join) :=
    Operation.eval_shuffleVector
  rw [← operation]
  apply createOp_computes
  · simp [isLeft.datum, isRight.datum]
  · rfl

/-- Every lane of a splat is the value. -/
theorem createVectorSplat_computes {lanes : Nat} {lane : Lane} (some_ : 0 < lanes)
    (isValue : Holds space setting value type [lane]) :
    Computes floats space setting (createVectorSplat lanes value) (.vector lanes type)
      (some (List.replicate lanes lane)) := by
  have undef : ∀ setting', Holds space setting' (.undef (.vector lanes type)) (.vector lanes type)
      (List.replicate lanes none) := fun setting' =>
    .constant rfl rfl fun _ _ isInst => by cases isInst
  have inserted : Computes floats space setting
      (createInsertElement (.undef (.vector lanes type)) value 0) (.vector lanes type) _ :=
    createInsertElement_computes (undef setting) isValue (by rwa [List.length_replicate]) (by decide)
  rw [createVectorSplat, isValue.type]
  apply inserted.andThen (createInsertElement_quiet ..) fun _ => createShuffleVector_quiet ..
  intro value setting' later isInserted
  have shuffled : Computes floats space setting'
      (createShuffleVector value (.undef (.vector lanes type)) (List.replicate lanes (some 0))) _ _ :=
    createShuffleVector_computes isInserted (undef setting')
  have first : ((List.replicate lanes none).set 0 lane ++ List.replicate lanes none)[0]?.join = lane := by
    rw [List.getElem?_append_left (by simpa using some_), List.getElem?_set_self (by simpa using some_)]
    rfl
  simpa only [List.length_replicate, List.map_replicate, Option.bind_some, Ty.scalar, first] using shuffled

/-- `CreateGEP` into an array of bytes. -/
theorem createGEP_computes {base index size : Nat} (isBase : Holds space setting left .ptr [some base])
    (isIndex : Holds space setting right (.int 32) [some index]) :
    Computes floats space setting (createGEP (.array size (.int 8)) left right) .ptr
      (some [some ((base + index) % 2 ^ 32)]) := by
  have operation : Operation.eval floats (.getElementPtr (.array size (.int 8)))
      ([left, .null (.int 32), right].map Value.type) .ptr
      [[some base], [some 0], [some index]] = some [some ((base + index) % 2 ^ 32)] := by
    have bytes : (Ty.int 8).bytes = 1 := rfl
    rw [Operation.eval_getElementPtr, bytes, Nat.zero_mul, Nat.zero_add, Nat.mul_one]
  rw [createGEP, isIndex.type, ← operation]
  apply createOp_computes
  · simp [isBase.datum, isIndex.datum, Ty.lanes]
  · rfl

/-- A load gives the bytes at the address, where its alignment allows the access. -/
theorem createLoad_computes {address : Nat} (isAddress : Holds space setting value .ptr [some address]) :
    Computes floats space setting (createLoad type value) type
      (if space.Accessible type address then
        some (Datum.ofBits type (setting.machine.bytes.read address type.bytes)) else none) := by
  rw [createLoad, createOp]
  have stand : [value].mapM (Value.datum space setting.machine) = some [[some address]] := by
    simp [isAddress.datum]
  refine create_computes ?_
  rw [Plain.execute_load stand]
  split <;> rfl

end Builder

/-! ## Operands and results on the stack -/

/-- The visit takes its operands from the stack down to `rest` and pushes a value with the
outcome; memory stays as it is. -/
def Leaves (floats : Floats) (space : Space) (setting : Setting) (visit : Emit Unit) (rest : List Value)
    (type : Ty) : Option Datum → Prop
  | none => runCode floats space visit setting = none
  | some datum => ∃ value setting', runCode floats space visit setting = some ((), setting') ∧
      setting'.straight.stack = value :: rest ∧ Holds space setting' value type datum ∧
      setting'.machine.bytes = setting.machine.bytes

/-- A visit has one outcome. -/
theorem Leaves.unique {setting : Setting} {visit : Emit Unit} {rest : List Value} {type type' : Ty}
    {outcome outcome' : Option Datum} (leaves : Leaves floats space setting visit rest type outcome)
    (leaves' : Leaves floats space setting visit rest type' outcome') : outcome = outcome' := by
  cases outcome with
  | none =>
      cases outcome' with
      | none => rfl
      | some datum' =>
          obtain ⟨_, _, ran, _⟩ := leaves'
          exact absurd (ran.symm.trans leaves) (by simp)
  | some datum =>
      obtain ⟨value, setting', ran, stack, holds, _⟩ := leaves
      cases outcome' with
      | none => exact absurd (ran.symm.trans leaves') (by simp)
      | some datum' =>
          obtain ⟨value', setting'', ran', stack', holds', _⟩ := leaves'
          cases ran.symm.trans ran'
          cases List.head_eq_of_cons_eq (stack.symm.trans stack')
          rw [← holds.datum, holds'.datum]

/-- What a visit leaves is the same for another with the same run. -/
theorem Leaves.congr {setting setting' : Setting} {visit visit' : Emit Unit} {rest : List Value} {type : Ty}
    {outcome : Option Datum} (same : runCode floats space visit setting = runCode floats space visit' setting')
    (bytes : setting'.machine.bytes = setting.machine.bytes)
    (leaves : Leaves floats space setting' visit' rest type outcome) :
    Leaves floats space setting visit rest type outcome := by
  cases outcome with
  | none => exact same.trans leaves
  | some datum =>
      obtain ⟨value, last, ran, stack, holds, kept⟩ := leaves
      exact ⟨value, last, same.trans ran, stack, holds, kept.trans bytes⟩

def Setting.withStack (setting : Setting) (stack : List Value) : Setting :=
  ⟨{ setting.straight with stack := stack }, setting.machine⟩

theorem Setting.withStack_same {setting : Setting} {stack : List Value}
    (is : setting.straight.stack = stack) : setting.withStack stack = setting := by
  cases is
  rfl

section Visits

variable {setting : Setting} {code : Emit Value} {type : Ty} {outcome : Option Datum}
  {p1 p2 : Value} {rest : List Value}

theorem runCode_popStack {next : Value → Emit β} (top : setting.straight.stack = p1 :: rest)
    (appends : ∀ value, Appends (next value)) :
    runCode floats space (Visit.popStack >>= next) setting =
      runCode floats space (next p1) (setting.withStack rest) := by
  have popped : (Visit.popStack : Emit Value) setting.straight =
      .ok (p1, (setting.withStack rest).straight) := by
    rw [Visit.popStack, top]
    rfl
  have ran : runCode floats space Visit.popStack setting = _ := runCode_ok popped
  have nothing : (setting.withStack rest).straight.code.drop setting.straight.code.length = [] :=
    List.drop_length
  rw [nothing, executeAll, Option.map_some] at ran
  rw [runCode_bind popStack_appends appends, ran, Option.bind_some]
  rfl

theorem Computes.leaves (computes : Computes floats space (setting.withStack rest) code type outcome)
    (quiet : Quiet code) :
    Leaves floats space (setting.withStack rest) (code >>= Visit.pushStack) rest type outcome := by
  have whole : runCode floats space (code >>= Visit.pushStack) (setting.withStack rest) = _ :=
    runCode_bind quiet.appends pushStack_appends
  cases outcome with
  | none =>
      rw [show runCode floats space code (setting.withStack rest) = none from computes] at whole
      exact whole
  | some datum =>
      obtain ⟨value, setting', ran, later, holds⟩ := computes
      have pushed : runCode floats space (Visit.pushStack value : Emit Unit) setting' = _ := runCode_ok rfl
      rw [List.drop_length, executeAll, Option.map_some] at pushed
      rw [ran, Option.bind_some, pushed] at whole
      exact ⟨value, _, whole, congrArg (value :: ·) later.stack, holds.stack _, later.bytes⟩

/-- The visit of an instruction pops its operands first. -/
theorem Leaves.popStack {next : Value → Emit Unit} {below : List Value}
    (leaves : Leaves floats space (setting.withStack below) (next p1) rest type outcome)
    (top : setting.straight.stack = p1 :: below) (appends : ∀ value, Appends (next value)) :
    Leaves floats space setting (Visit.popStack >>= next) rest type outcome :=
  leaves.congr (runCode_popStack top appends) rfl

theorem visitUnaryInst_leaves {opcode : UnaryOpcode} (top : setting.straight.stack = p1 :: rest)
    (computes : Computes floats space (setting.withStack rest) (unaryCode opcode p1) type outcome) :
    Leaves floats space setting (visitUnaryInst opcode) rest type outcome := by
  refine (computes.leaves (unaryCode_quiet ..)).popStack top fun value => ?_
  exact (unaryCode_quiet ..).appends.bind pushStack_appends

/-- A result that is not null is pushed. -/
theorem some_bind_pushResult : (some <$> code) >>= pushResult = code >>= Visit.pushStack := by
  rw [bind_map_left]
  rfl

theorem pushResult_appends (result : Option Value) : Appends (pushResult result) := by
  cases result with
  | none => exact (quiet_pure _).appends
  | some ret => exact pushStack_appends ret

theorem visitConvertExpr_leaves {opcode : ConvertOpcode} (top : setting.straight.stack = p1 :: rest)
    (emitted : convertCode opcode p1 = some <$> code) (quiet : Quiet code)
    (computes : Computes floats space (setting.withStack rest) code type outcome) :
    Leaves floats space setting (visitConvertExpr opcode) rest type outcome := by
  have leaves := computes.leaves quiet
  rw [← some_bind_pushResult, ← emitted] at leaves
  exact leaves.popStack top fun value => (convertCode_quiet ..).appends.bind pushResult_appends

theorem visitBinaryInst_leaves {opcode : BinaryOpcode} (top : setting.straight.stack = p1 :: p2 :: rest)
    (emitted : binaryCode opcode p1 p2 = some <$> code) (quiet : Quiet code)
    (computes : Computes floats space (setting.withStack rest) code type outcome) :
    Leaves floats space setting (visitBinaryInst opcode) rest type outcome := by
  have leaves := computes.leaves quiet
  rw [← some_bind_pushResult, ← emitted] at leaves
  have second : Leaves floats space (setting.withStack (p2 :: rest))
      (Visit.popStack >>= fun p2 => binaryCode opcode p1 p2 >>= pushResult) rest type outcome :=
    leaves.popStack rfl fun value => (binaryCode_quiet ..).appends.bind pushResult_appends
  refine second.popStack top fun value => popStack_appends.bind fun value' => ?_
  exact (binaryCode_quiet ..).appends.bind pushResult_appends

theorem visitCompareExpr_leaves {opcode : CompareOpcode} {resultType : Option Ty}
    (top : setting.straight.stack = p1 :: p2 :: rest)
    (emitted : compareCode opcode p1 p2 = (·, resultType) <$> code) (quiet : Quiet code)
    (computes : Computes floats space (setting.withStack rest)
      (code >>= fun ret => widenComparison ret resultType) type outcome) :
    Leaves floats space setting (visitCompareExpr opcode) rest type outcome := by
  have leaves := computes.leaves (quiet_bind quiet fun ret => widenComparison_quiet ..)
  have whole : (code >>= fun ret => widenComparison ret resultType) >>= Visit.pushStack =
      compareCode opcode p1 p2 >>= fun result => widenComparison result.1 result.2 >>= Visit.pushStack := by
    rw [emitted, bind_map_left, bind_assoc]
  rw [whole] at leaves
  have appends : ∀ p1 p2, Appends (compareCode opcode p1 p2 >>= fun result =>
      widenComparison result.1 result.2 >>= Visit.pushStack) := fun p1 p2 =>
    (compareCode_quiet ..).appends.bind fun result =>
      (widenComparison_quiet ..).appends.bind pushStack_appends
  have second : Leaves floats space (setting.withStack (p2 :: rest))
      (Visit.popStack >>= fun p2 => compareCode opcode p1 p2 >>= fun result =>
        widenComparison result.1 result.2 >>= Visit.pushStack) rest type outcome :=
    leaves.popStack rfl (appends p1)
  exact second.popStack top fun value => popStack_appends.bind (appends value)

end Visits

end WasmToLlvm.Instruction
