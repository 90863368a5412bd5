import WasmToLlvm.Block.TypedPlaces
import WasmToLlvm.Instruction.StackEffect
import WasmToLlvm.Instruction.Typing

/-!
# Code on operands of known types

A `v128` is an `i128` in parameters, locals, constants and phis. The instructions on scalars,
and those that leave no other vector on the stack, take values of the LLVM types of their
operands, give values of the LLVM types of their results, and their code is accepted.
-/

set_option autoImplicit false

namespace WasmToLlvm.Instruction

open Llvm Wasm Block Library

/-- What the verifier requires of an operation. -/
def Accepts (operation : Operation) (operands : List Ty) (result : Ty) : Prop :=
  operation.wellTyped operands result = true

theorem agrees_iff (plain : Plain Operation) : plain.Agrees Accepts ↔ plain.wellTyped = true := by
  cases plain with
  | alloca _ => simp [Plain.Agrees, Plain.wellTyped]
  | load _ _ => simp [Plain.Agrees, Plain.wellTyped]
  | store _ _ => simp [Plain.Agrees, Plain.wellTyped]
  | icmp _ _ _ => simp [Plain.Agrees, Plain.wellTyped]
  | select _ _ _ => simp [Plain.Agrees, Plain.wellTyped]
  | op _ _ _ => simp [Plain.Agrees, Plain.wellTyped, Accepts]

/-- Accepted code that gives a value of a type and leaves the stack as it is. -/
def Makes (type : Ty) (emit : Emit Value) : Prop :=
  ∀ locals types, Retypes Accepts locals types (fun value after => value.type = type ∧ after = types) emit

section Rules

variable {emit : Emit Value} {type source target : Ty} {p1 p2 value vector left right : Value}

theorem Types.makes (types : Types emit type True) : Makes type emit := by
  intro locals stacked
  refine ⟨fun {low before after result} start same ran => ?_⟩
  obtain ⟨extends_, isType⟩ := types.emits.run ran
  obtain ⟨result', after', ran', accepted⟩ := types.runs before
  obtain ⟨rfl, rfl⟩ := Prod.mk.inj (Except.ok.inj (ran'.symm.trans ran))
  refine ⟨extends_.locals.trans same, stacked, ⟨isType, rfl⟩, extends_.stack ▸ start.stack, fun plain member => ?_⟩
  obtain ⟨more, whole⟩ := extends_.code
  rw [← whole, List.drop_left] at accepted
  rw [← whole] at member
  rcases List.mem_append.mp member with old | new
  · exact start.code plain old
  · exact (agrees_iff plain).mpr (accepted.mpr trivial plain new)

theorem createOp_types {operation : Operation} {operands : List Value}
    (ok : operation.wellTyped (operands.map Value.type) type = true) : Types (createOp operation type operands) type True :=
  (create_types (.op operation type operands)).congr (iff_of_true ok trivial)

theorem cast_types (kind : CastOp) (is : value.type = source) (ok : source = target ∨ kind.accepts source target = true) :
    Types (createCast kind value target) target True := by
  by_cases same : source = target
  · rw [createCast, if_pos (is.trans same)]
    exact .done (is.trans same)
  · exact (createCast_types kind is same).congr (iff_of_true (ok.resolve_left same) trivial)

theorem binary_types {operator : BinaryOperator} (isLeft : left.type = type) (isRight : right.type = type)
    (ok : (if operator.isFloat then type.scalar.isFloat else type.scalar.isInt) = true) :
    Types (createBinary operator left right) type True :=
  (createBinary_types operator isLeft isRight).congr (iff_of_true ok trivial)

/-- A call of an intrinsic through the declaration for the type of its operand. -/
theorem call_types {intrinsic : Intrinsic} {operands : List Value} (is : p1.type = type)
    (overloads : intrinsic.overloads type = true) (params : operands.map Value.type = intrinsic.params type) :
    Types (createCall intrinsic p1.type operands) type True := by
  rw [is]
  refine createOp_types ?_
  rw [Operation.wellTyped, overloads, params]
  simp

theorem extractElement_types {lanes : Nat} {element : Ty} (index : Nat) (is : vector.type = .vector lanes element) :
    Types (createExtractElement vector index) element True := by
  rw [createExtractElement, is]
  refine createOp_types ?_
  have types : [vector, .int 64 index].map Value.type = [.vector lanes element, .int 64] := by
    rw [List.map_cons, is]
    rfl
  rw [types]
  simp [Operation.wellTyped, Ty.isVector, Ty.scalar, Ty.isInt]

theorem icmp_types {predicate : IntPredicate} (isLeft : left.type = type) (isRight : right.type = type)
    (ok : type.scalar.isInt = true) : Types (createICmp predicate left right) type.comparison True :=
  createICmp_types predicate isLeft isRight ok

end Rules

/-! ## Unary instructions -/

section Unary

variable {p1 : Value} {type : Ty}

/-- The unary instructions that take and leave values of the LLVM types of their types. The
others leave vectors; `v128.any_true` takes one. -/
def UnaryOpcode.keepsTypes : UnaryOpcode → Bool
  | .i32Clz | .i64Clz | .i32Ctz | .i64Ctz | .i32Popcnt | .i64Popcnt
  | .i32Extend8S | .i32Extend16S | .i64Extend8S | .i64Extend16S | .i64Extend32S
  | .f32Abs | .f64Abs | .f32Neg | .f64Neg | .f32Ceil | .f64Ceil | .f32Floor | .f64Floor
  | .f32Trunc | .f64Trunc | .f32Nearest | .f64Nearest | .f32Sqrt | .f64Sqrt
  | .v128Not
  | .i8x16AllTrue | .i16x8AllTrue | .i32x4AllTrue | .i64x2AllTrue
  | .i8x16Bitmask | .i16x8Bitmask | .i32x4Bitmask | .i64x2Bitmask
  | .i32x4TruncSatF64x2SZero | .i32x4TruncSatF64x2UZero => true
  | _ => false

theorem allTrueLanes_types {vector zero result : Value} {lanes : Nat} {element : Ty}
    (is : vector.type = .vector lanes element) (isZero : zero.type = element) (integer : element.scalar.isInt = true)
    (bit : element.comparison = .int 1) (count index : Nat) (isResult : result.type = .int 1) :
    Types (createAllTrueLanes vector zero count index result) (.int 1) True := by
  induction count generalizing index result with
  | zero => exact .done isResult
  | succ count ih =>
      refine (extractElement_types index is).andThen fun scalar isScalar => ?_
      refine (icmp_types isScalar isZero integer).andThen fun scalarBool isBool => ?_
      refine (binary_types isResult (isBool.trans bit) (by rfl)).andThen fun both isBoth => ?_
      exact ih (index + 1) isBoth

theorem allTrueOf_types {lanes width : Nat} {v : Value} (is : v.type = .vector lanes (.int width)) :
    Types (createAllTrue v (.vector lanes (.int width))) (.int 32) True := by
  refine (cast_types .bitCast is (.inl rfl)).andThen fun vector isVector => ?_
  refine (extractElement_types 0 isVector).andThen fun scalar isScalar => ?_
  refine (icmp_types isScalar rfl (by rfl)).andThen fun scalarBool isBool => ?_
  refine (allTrueLanes_types isVector rfl (by rfl) (by rfl) _ 1 isBool).andThen fun result isResult => ?_
  exact cast_types .zext isResult (.inr (by decide))

/-- A vector operand is cast to its shape first. -/
theorem allTrue_types {lanes width : Nat} (is : p1.type = .int 128) (size : lanes * width = 128) :
    Types (emitSimdUnaryOp (.vector lanes (.int width)) p1 fun v => createAllTrue v (.vector lanes (.int width)))
      (.int 32) True := by
  have accepts : CastOp.accepts .bitCast (.int 128) (.vector lanes (.int width)) = true := by
    simp [CastOp.accepts, Ty.size, Ty.lanes, Ty.laneBits, Ty.scalar, Ty.bits, Ty.isInt, size]
  exact (cast_types .bitCast is (.inr accepts)).andThen fun v isV => allTrueOf_types isV

theorem bitmask_types {lanes width : Nat} (is : p1.type = .int 128) (size : lanes * width = 128) (narrow : lanes < 32) :
    Types (createBitmask (.vector lanes (.int width)) p1) (.int 32) True := by
  have accepts : CastOp.accepts .bitCast (.int 128) (.vector lanes (.int width)) = true := by
    simp [CastOp.accepts, Ty.size, Ty.lanes, Ty.laneBits, Ty.scalar, Ty.bits, Ty.isInt, size]
  refine (cast_types .bitCast is (.inr accepts)).andThen fun operand isOperand => ?_
  refine (icmp_types isOperand rfl (by rfl)).andThen fun mask isMask => ?_
  refine (cast_types .bitCast isMask (.inr ?_)).andThen fun bits isBits => ?_
  · simp [CastOp.accepts, Ty.comparison, Ty.size, Ty.lanes, Ty.laneBits, Ty.scalar, Ty.bits, Ty.isInt]
  · exact cast_types .zext isBits (.inr (by simp [CastOp.accepts, Ty.sameShape, Ty.isVector, Ty.lanes, Ty.laneBits,
      Ty.scalar, Ty.bits, Ty.isInt, narrow]))

theorem extend_types {source narrow : Nat} (is : p1.type = .int source) (less : narrow < source) :
    Types (createCast .trunc p1 (.int narrow) >>= fun ret => createCast .sext ret (.int source)) (.int source) True := by
  refine (cast_types .trunc is (.inr ?_)).andThen fun ret isRet => cast_types .sext isRet (.inr ?_)
  · simp [CastOp.accepts, Ty.sameShape, Ty.isVector, Ty.lanes, Ty.laneBits, Ty.scalar, Ty.bits, Ty.isInt, less]
  · simp [CastOp.accepts, Ty.sameShape, Ty.isVector, Ty.lanes, Ty.laneBits, Ty.scalar, Ty.bits, Ty.isInt, less]

theorem fneg_types (is : p1.type = type) (float : type.scalar.isFloat = true) : Types (createFNeg p1) type True := by
  rw [createFNeg, is]
  refine createOp_types ?_
  simp [Operation.wellTyped, is, float]

theorem createNot_types (is : p1.type = type) (integer : type.scalar.isInt = true) : Types (createNot p1) type True :=
  binary_types is (show (Value.allOnes p1.type).type = type from is) integer

/-- The code of a unary instruction that keeps the types. -/
theorem unaryCode_makes {opcode : UnaryOpcode} (kept : opcode.keepsTypes = true) {source target : ValType}
    (signature : opcode.signature = ⟨[source], [target]⟩) (is : convertType? source = some p1.type) :
    ∃ result, convertType? target = some result ∧ Makes result (unaryCode opcode p1) := by
  have known : ∀ {type}, convertType? source = some type → p1.type = type := fun found =>
    Option.some.inj (is.symm.trans found)
  cases opcode
  case f32Abs | f64Abs | f32Ceil | f64Ceil | f32Floor | f64Floor | f32Trunc | f64Trunc | f32Nearest | f64Nearest
      | f32Sqrt | f64Sqrt | i32Popcnt | i64Popcnt =>
    cases signature
    have isType := known rfl
    exact ⟨_, rfl, (call_types isType (by rfl) (by rw [List.map_singleton, isType]; rfl)).makes⟩
  case i32Clz | i64Clz | i32Ctz | i64Ctz =>
    cases signature
    have isType := known rfl
    exact ⟨_, rfl, (call_types isType (by rfl) (by rw [List.map_cons, isType]; rfl)).makes⟩
  case i32Extend8S | i32Extend16S | i64Extend8S | i64Extend16S | i64Extend32S =>
    cases signature
    exact ⟨_, rfl, (extend_types (known rfl) (by decide)).makes⟩
  case f32Neg | f64Neg =>
    cases signature
    exact ⟨_, rfl, (fneg_types (known rfl) (by rfl)).makes⟩
  case v128Not =>
    cases signature
    exact ⟨_, rfl, (createNot_types (known rfl) (by rfl)).makes⟩
  case i8x16AllTrue | i16x8AllTrue | i32x4AllTrue | i64x2AllTrue =>
    cases signature
    exact ⟨_, rfl, (allTrue_types (known rfl) (by rfl)).makes⟩
  case i8x16Bitmask | i16x8Bitmask | i32x4Bitmask | i64x2Bitmask =>
    cases signature
    exact ⟨_, rfl, (bitmask_types (known rfl) (by rfl) (by decide)).makes⟩
  case i32x4TruncSatF64x2SZero | i32x4TruncSatF64x2UZero =>
    cases signature
    refine ⟨_, rfl, fun locals types => ?_⟩
    exact ((cast_types .bitCast (known rfl) (.inr (by decide))).makes locals types).bind fun _ _ _ => retypes_throw _
  all_goals exact absurd kept Bool.false_ne_true

end Unary

/-! ## Binary instructions, comparisons and conversions -/

section Binary

variable {p1 p2 : Value} {type : Ty} {emit : Emit Value}

/-- Accepted code whose result is there. -/
def MakesSome (type : Ty) (emit : Emit (Option Value)) : Prop :=
  ∀ locals types, Retypes Accepts locals types
    (fun ret after => (∃ value, ret = some value ∧ value.type = type) ∧ after = types) emit

theorem Makes.some (makes : Makes type emit) : MakesSome type (some <$> emit) := fun locals types =>
  (makes locals types).map fun value _ ⟨isType, same⟩ => ⟨⟨value, rfl, isType⟩, same⟩

/-- The binary instructions on scalars, and the bitwise ones on vectors. -/
def BinaryOpcode.keepsTypes : BinaryOpcode → Bool
  | .i32Add | .i64Add | .i32Sub | .i64Sub | .i32Mul | .i64Mul | .i32DivS | .i64DivS | .i32DivU | .i64DivU
  | .i32RemS | .i64RemS | .i32RemU | .i64RemU | .i32And | .i64And | .i32Or | .i64Or | .i32Xor | .i64Xor
  | .i32Shl | .i64Shl | .i32ShrS | .i64ShrS | .i32ShrU | .i64ShrU | .i32Rotl | .i64Rotl | .i32Rotr | .i64Rotr
  | .f32Add | .f64Add | .f32Sub | .f64Sub | .f32Mul | .f64Mul | .f32Div | .f64Div
  | .f32Min | .f64Min | .f32Max | .f64Max | .f32Copysign | .f64Copysign
  | .v128And | .v128Or | .v128Xor | .v128Andnot => true
  | _ => false

theorem binaryCode_makes {opcode : BinaryOpcode} (kept : opcode.keepsTypes = true) {source target : ValType}
    (signature : opcode.signature = ⟨[source, source], [target]⟩) (is1 : convertType? source = some p1.type)
    (is2 : convertType? source = some p2.type) :
    ∃ result, convertType? target = some result ∧ MakesSome result (binaryCode opcode p1 p2) := by
  have known : ∀ {type}, convertType? source = some type → p1.type = type ∧ p2.type = type := fun found =>
    ⟨Option.some.inj (is1.symm.trans found), Option.some.inj (is2.symm.trans found)⟩
  cases opcode
  case i32Add | i64Add | i32Sub | i64Sub | i32Mul | i64Mul | i32DivS | i64DivS | i32DivU | i64DivU
      | i32RemS | i64RemS | i32RemU | i64RemU | i32And | i64And | i32Or | i64Or | i32Xor | i64Xor
      | i32Shl | i64Shl | i32ShrS | i64ShrS | i32ShrU | i64ShrU
      | f32Add | f64Add | f32Sub | f64Sub | f32Mul | f64Mul | f32Div | f64Div | v128And | v128Or | v128Xor =>
    cases signature
    obtain ⟨isRight, isLeft⟩ := known rfl
    exact ⟨_, rfl, (binary_types isLeft isRight (by rfl)).makes.some⟩
  case i32Rotl | i64Rotl | i32Rotr | i64Rotr | f32Min | f64Min | f32Max | f64Max | f32Copysign | f64Copysign =>
    cases signature
    obtain ⟨isRight, isLeft⟩ := known rfl
    exact ⟨_, rfl, (call_types isRight (by rfl) (by simp only [List.map_cons, List.map_nil, isLeft, isRight]; rfl)).makes.some⟩
  case v128Andnot =>
    cases signature
    obtain ⟨isRight, isLeft⟩ := known rfl
    refine ⟨_, rfl, fun locals types => ?_⟩
    refine ((createNot_types isRight (by rfl)).makes locals types).bind ?_
    rintro complement _ ⟨isComplement, rfl⟩
    exact (binary_types isLeft isComplement (by rfl)).makes.some locals _
  all_goals exact absurd kept Bool.false_ne_true

/-- The comparisons of scalars. -/
def CompareOpcode.keepsTypes : CompareOpcode → Bool
  | .i32Eq | .i64Eq | .i32Ne | .i64Ne | .i32LtS | .i64LtS | .i32LtU | .i64LtU | .i32GtS | .i64GtS
  | .i32GtU | .i64GtU | .i32LeS | .i64LeS | .i32LeU | .i64LeU | .i32GeS | .i64GeS | .i32GeU | .i64GeU
  | .f32Eq | .f64Eq | .f32Ne | .f64Ne | .f32Lt | .f64Lt | .f32Gt | .f64Gt | .f32Le | .f64Le | .f32Ge | .f64Ge => true
  | _ => false

theorem fcmp_types {predicate : FloatPredicate} (isLeft : p2.type = type) (isRight : p1.type = type)
    (ok : type.scalar.isFloat = true) : Types (createFCmp predicate p2 p1) type.comparison True :=
  createFCmp_types predicate isLeft isRight ok

/-- A comparison of scalars is one bit, widened to an integer. -/
theorem compareCode_makes {opcode : CompareOpcode} (kept : opcode.keepsTypes = true) {source target : ValType}
    (signature : opcode.signature = ⟨[source, source], [target]⟩) (is1 : convertType? source = some p1.type)
    (is2 : convertType? source = some p2.type) :
    target = .i32 ∧ ∀ locals types, Retypes Accepts locals types
      (fun result after => result.1.type = .int 1 ∧ result.2 = none ∧ after = types) (compareCode opcode p1 p2) := by
  have known : ∀ {type}, convertType? source = some type → p1.type = type ∧ p2.type = type := fun found =>
    ⟨Option.some.inj (is1.symm.trans found), Option.some.inj (is2.symm.trans found)⟩
  have single : ∀ {emit}, Makes (.int 1) emit → ∀ locals types, Retypes Accepts locals types
      (fun result after => result.1.type = .int 1 ∧ result.2 = none ∧ after = types)
      ((·, (none : Option Ty)) <$> emit) := fun makes locals types =>
    (makes locals types).map fun _ _ ⟨isType, same⟩ => ⟨isType, rfl, same⟩
  cases opcode
  case i32Eq | i64Eq | i32Ne | i64Ne | i32LtS | i64LtS | i32LtU | i64LtU | i32GtS | i64GtS
      | i32GtU | i64GtU | i32LeS | i64LeS | i32LeU | i64LeU | i32GeS | i64GeS | i32GeU | i64GeU =>
    cases signature
    obtain ⟨isRight, isLeft⟩ := known rfl
    exact ⟨rfl, single (icmp_types isLeft isRight (by rfl)).makes⟩
  case f32Eq | f64Eq | f32Ne | f64Ne | f32Lt | f64Lt | f32Gt | f64Gt | f32Le | f64Le | f32Ge | f64Ge =>
    cases signature
    obtain ⟨isRight, isLeft⟩ := known rfl
    exact ⟨rfl, single (fcmp_types isLeft isRight (by rfl)).makes⟩
  all_goals exact absurd kept Bool.false_ne_true

theorem uiToFP_types {source : Ty} (is : p1.type = source) (ok : CastOp.accepts .uiToFP source type = true) :
    Types (createUIToFP p1 type) type True := by
  refine createOp_types ?_
  rw [List.map_singleton, is]
  exact ok

theorem eqz_types {width : Nat} (is : p1.type = .int width) :
    Types (createICmp .eq p1 (.null p1.type)) (.int 1) True :=
  icmp_types is is (by rfl)

theorem convertCode_makes {opcode : ConvertOpcode} (implemented : opcode.implemented = true) {source target : ValType}
    (signature : opcode.signature = ⟨[source], [target]⟩) (is : convertType? source = some p1.type) :
    ∃ result, convertType? target = some result ∧ MakesSome result (convertCode opcode p1) := by
  have known : ∀ {type}, convertType? source = some type → p1.type = type := fun found =>
    Option.some.inj (is.symm.trans found)
  cases opcode
  case i32Eqz | i64Eqz =>
    cases signature
    refine ⟨_, rfl, fun locals types => ?_⟩
    refine ((eqz_types (known rfl)).makes locals types).bind ?_
    rintro ret _ ⟨isRet, rfl⟩
    exact (cast_types .zext isRet (.inr (by decide))).makes.some locals _
  case f32ConvertI32U | f32ConvertI64U | f64ConvertI32U | f64ConvertI64U =>
    cases signature
    exact ⟨_, rfl, (uiToFP_types (known rfl) (by decide)).makes.some⟩
  case i32TruncSatF32S | i32TruncSatF32U | i32TruncSatF64S | i32TruncSatF64U
      | i64TruncSatF32S | i64TruncSatF32U | i64TruncSatF64S | i64TruncSatF64U =>
    exact absurd implemented Bool.false_ne_true
  all_goals
    cases signature
    exact ⟨_, rfl, (cast_types _ (known rfl) (.inr (by decide))).makes.some⟩

end Binary

end WasmToLlvm.Instruction
