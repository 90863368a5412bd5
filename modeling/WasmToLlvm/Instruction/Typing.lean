import WasmToLlvm.Instruction.Emission

/-!
# Types of the created code

Whether the verifier accepts the code of an instruction depends on the types of its operands
alone.
-/

set_option autoImplicit false

namespace WasmToLlvm.Instruction

open Llvm Wasm Block Library

/-- The verifier accepts the code that a computation adds. -/
def WellTyped {α : Type} (emit : Emit α) (straight : Straight Operation) : Prop :=
  ∃ value after, emit straight = .ok (value, after) ∧
    ∀ plain ∈ after.code.drop straight.code.length, plain.wellTyped = true

/-- A computation that gives a value of a type, and when its code is accepted. -/
structure Types (emit : Emit Value) (type : Ty) (typed : Prop) : Prop where
  emits : Emits emit fun value => value.type = type
  runs : ∀ before, ∃ value after, emit before = .ok (value, after) ∧
    ((∀ plain ∈ after.code.drop before.code.length, plain.wellTyped = true) ↔ typed)

section Rules

variable {emit : Emit Value} {next : Value → Emit Value} {type type' : Ty} {typed typed' : Prop}
  {left right value : Value}

theorem Types.done (isType : value.type = type) : Types (pure value) type True where
  emits := .pure isType
  runs before := by
    refine ⟨value, before, rfl, iff_of_true ?_ trivial⟩
    rw [List.drop_length]
    intro plain member
    cases member

theorem Types.bind (first : Types emit type typed)
    (rest : ∀ value, value.type = type → Types (next value) type' typed') :
    Types (emit >>= next) type' (typed ∧ typed') where
  emits := first.emits.bind fun value isType => (rest value isType).emits
  runs before := by
    obtain ⟨value, middle, ran, accepted⟩ := first.runs before
    obtain ⟨extends_, isType⟩ := first.emits.run ran
    obtain ⟨value', after, ran', accepted'⟩ := (rest value isType).runs middle
    obtain ⟨extends', _⟩ := (rest value isType).emits.run ran'
    refine ⟨value', after, (bind_run_ok ran).trans ran', ?_⟩
    obtain ⟨code, whole⟩ := extends_.code
    obtain ⟨more, whole'⟩ := extends'.code
    rw [← whole', List.drop_left] at accepted'
    rw [← whole, List.drop_left] at accepted
    rw [← whole', ← whole, List.append_assoc, List.drop_left, ← accepted, ← accepted']
    exact List.forall_mem_append

theorem Types.congr (types : Types emit type typed) (same : typed ↔ typed') : Types emit type typed' where
  emits := types.emits
  runs before := by
    obtain ⟨value, after, ran, accepted⟩ := types.runs before
    exact ⟨value, after, ran, accepted.trans same⟩

/-- A sequence of accepted steps. -/
theorem Types.andThen (first : Types emit type True)
    (rest : ∀ value, value.type = type → Types (next value) type' True) : Types (emit >>= next) type' True :=
  (first.bind rest).congr (and_self_iff)

theorem create_types (plain : Plain Operation) :
    Types (Visit.create plain) plain.type (plain.wellTyped = true) where
  emits := create_emits plain
  runs before := by
    refine ⟨_, _, rfl, ?_⟩
    rw [List.drop_left]
    exact List.forall_mem_singleton

theorem createBinary_types (operator : BinaryOperator) (isLeft : left.type = type)
    (isRight : right.type = type) :
    Types (createBinary operator left right) type
      ((if operator.isFloat then type.scalar.isFloat else type.scalar.isInt) = true) := by
  have types := create_types (.op (.binary operator) left.type [left, right])
  rw [Plain.type, isLeft] at types
  rw [createBinary, createOp, isLeft]
  refine types.congr ?_
  simp [Plain.wellTyped, Operation.wellTyped, isLeft, isRight]

theorem createCast_types (kind : CastOp) (isValue : value.type = type) (different : type ≠ type') :
    Types (createCast kind value type') type' (kind.accepts type type' = true) := by
  rw [createCast, if_neg (isValue ▸ different), createOp]
  refine (create_types (.op (.cast kind) type' [value])).congr ?_
  simp [Plain.wellTyped, Operation.wellTyped, isValue]

/-- A bitcast between types of one size is accepted. -/
theorem bitCast_types (size : value.type.size = type.size)
    (source : value.type.scalar.isInt ∨ value.type.scalar.isFloat)
    (target : type.scalar.isInt ∨ type.scalar.isFloat) :
    Types (createCast .bitCast value type) type True := by
  by_cases same : value.type = type
  · rw [createCast, if_pos same]
    exact .done same
  · refine (createCast_types .bitCast rfl same).congr (iff_of_true ?_ trivial)
    simp [CastOp.accepts, size, source, target]

theorem createICmp_types (predicate : IntPredicate) (isLeft : left.type = type)
    (isRight : right.type = type) (integer : type.scalar.isInt = true) :
    Types (createICmp predicate left right) type.comparison True := by
  have types := create_types (.icmp predicate left right)
  rw [Plain.type, isLeft] at types
  refine types.congr (iff_of_true ?_ trivial)
  simp [Plain.wellTyped, isLeft, isRight, integer]

theorem createFCmp_types (predicate : FloatPredicate) (isLeft : left.type = type)
    (isRight : right.type = type) (float : type.scalar.isFloat = true) :
    Types (createFCmp predicate left right) type.comparison True := by
  have types := create_types (.op (.fcmp predicate) left.type.comparison [left, right])
  rw [Plain.type, isLeft] at types
  rw [createFCmp, createOp, isLeft]
  refine types.congr (iff_of_true ?_ trivial)
  simp [Plain.wellTyped, Operation.wellTyped, isLeft, isRight, float]

/-- A choice for each lane. -/
theorem createSelect_types {lanes : Nat} {element : Ty} {condition : Value}
    (isCondition : condition.type = .vector lanes (.int 1)) (isLeft : left.type = .vector lanes element)
    (isRight : right.type = .vector lanes element) :
    Types (createSelect condition left right) (.vector lanes element) True := by
  have types := create_types (.select condition left right)
  rw [Plain.type, isLeft] at types
  refine types.congr (iff_of_true ?_ trivial)
  simp [Plain.wellTyped, isCondition, isLeft, isRight, Ty.isVector, Ty.lanes]

/-- A call of an intrinsic with two operands of its type. -/
theorem createCall_types {intrinsic : Intrinsic} (pair : ∀ type, intrinsic.params type = [type, type])
    (declared : Ty) (isLeft : left.type = type) (isRight : right.type = type) :
    Types (createCall intrinsic declared [left, right]) declared
      (intrinsic.overloads declared = true ∧ type = declared) := by
  rw [createCall, createOp]
  refine (create_types (.op (.intrinsic intrinsic declared) declared [left, right])).congr ?_
  simp [Plain.wellTyped, Operation.wellTyped, isLeft, isRight, pair]

/-- The code of an operation on two vectors. -/
theorem emitSimdBinaryOp_types {p1 p2 : Value} {shape : Ty} {emitCode : Value → Value → Emit Value}
    (size1 : p1.type.size = shape.size) (size2 : p2.type.size = shape.size)
    (scalar1 : p1.type.scalar.isInt ∨ p1.type.scalar.isFloat)
    (scalar2 : p2.type.scalar.isInt ∨ p2.type.scalar.isFloat)
    (scalar : shape.scalar.isInt ∨ shape.scalar.isFloat)
    (code : ∀ left right, left.type = shape → right.type = shape →
      Types (emitCode left right) type typed) :
    Types (emitSimdBinaryOp shape p1 p2 emitCode) type typed := by
  rw [emitSimdBinaryOp]
  refine ((bitCast_types size2 scalar2 scalar).bind fun right isRight =>
    (bitCast_types size1 scalar1 scalar).bind fun left isLeft => code left right isLeft isRight).congr ?_
  rw [true_and, true_and]

end Rules

/-! ## Visits -/

section Visits

variable {code : Emit Value} {type : Ty} {typed : Prop} {straight : Straight Operation}
  {p1 p2 : Value} {rest : List Value}

/-- Popping creates no code. -/
theorem wellTyped_popStack {α : Type} {next : Value → Emit α} (top : straight.stack = p1 :: rest) :
    WellTyped (Visit.popStack >>= next) straight ↔
      WellTyped (next p1) { straight with stack := rest } := by
  have popped : (Visit.popStack : Emit Value) straight = .ok (p1, { straight with stack := rest }) := by
    rw [Visit.popStack, top]
  rw [WellTyped, WellTyped, bind_run_ok popped]

theorem Types.wellTyped (types : Types code type typed) :
    WellTyped (code >>= Visit.pushStack) straight ↔ typed := by
  obtain ⟨value, after, ran, accepted⟩ := types.runs straight
  have pushed : (code >>= Visit.pushStack) straight = .ok ((), { after with stack := value :: after.stack }) :=
    (bind_run_ok ran).trans rfl
  rw [WellTyped, pushed, ← accepted]
  constructor
  · rintro ⟨_, _, same, all⟩
    cases same
    exact all
  · intro all
    exact ⟨(), _, rfl, all⟩

end Visits

end WasmToLlvm.Instruction
