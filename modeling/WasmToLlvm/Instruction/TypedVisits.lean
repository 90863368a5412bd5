import WasmToLlvm.Instruction.TypedCode

/-!
# Visits of instructions that keep the types

Which instructions take values of the LLVM types of their operands, with accepted code, and
leave values of the LLVM types of their results.
-/

set_option autoImplicit false

namespace WasmToLlvm.Instruction

open Llvm Wasm Block Library

section Visits

variable (environment : Environment) {locals : List AllocaInst} {types : List Ty} {type : Ty} {value : Value}

/-- One operand. -/
theorem convert_single {source : ValType} {takes : List Ty} (all : Convert [source] takes) :
    ∃ type, convertType? source = some type ∧ takes = [type] := by
  obtain ⟨type, _, is, none, rfl⟩ := List.forall₂_cons_left_iff.mp all
  exact ⟨type, is, by rw [List.forall₂_nil_left_iff.mp none]⟩

/-- Two operands of one type. -/
theorem convert_pair {source : ValType} {takes : List Ty} (all : Convert [source, source] takes) :
    ∃ type, convertType? source = some type ∧ takes = [type, type] := by
  obtain ⟨type, _, is, rest, rfl⟩ := List.forall₂_cons_left_iff.mp all
  obtain ⟨type', is', rfl⟩ := convert_single rest
  exact ⟨type, is, by rw [Option.some.inj (is'.symm.trans is)]⟩

theorem Makes.pushed {emit : Emit Value} (makes : Makes type emit) :
    Retypes Accepts locals types (fun _ after => after = type :: types) (emit >>= Visit.pushStack) := by
  refine (makes locals types).bind ?_
  rintro value _ ⟨rfl, rfl⟩
  exact pushStack_retypes value

theorem MakesSome.pushed {emit : Emit (Option Value)} (makes : MakesSome type emit) :
    Retypes Accepts locals types (fun _ after => after = type :: types) (emit >>= pushResult) := by
  refine (makes locals types).bind ?_
  rintro _ _ ⟨⟨value, rfl, rfl⟩, rfl⟩
  exact pushStack_retypes value

theorem UnaryOpcode.signature_shape (opcode : UnaryOpcode) :
    ∃ source target, opcode.signature = ⟨[source], [target]⟩ := by
  cases opcode <;> exact ⟨_, _, rfl⟩

theorem ConvertOpcode.signature_shape (opcode : ConvertOpcode) :
    ∃ source target, opcode.signature = ⟨[source], [target]⟩ := by
  cases opcode <;> exact ⟨_, _, rfl⟩

theorem BinaryOpcode.signature_shape {opcode : BinaryOpcode} (kept : opcode.keepsTypes = true) :
    ∃ source target, opcode.signature = ⟨[source, source], [target]⟩ := by
  cases opcode <;> first | exact ⟨_, _, rfl⟩ | exact absurd kept Bool.false_ne_true

theorem CompareOpcode.signature_shape (opcode : CompareOpcode) :
    ∃ source target, opcode.signature = ⟨[source, source], [target]⟩ := by
  cases opcode <;> exact ⟨_, _, rfl⟩

theorem visitUnaryInst_retypes {opcode : UnaryOpcode} (kept : opcode.keepsTypes = true) {takes : List Ty}
    (all : Convert opcode.signature.params.reverse takes) :
    Retypes Accepts locals takes (fun _ after => Convert opcode.signature.results.reverse after)
      (visitUnaryInst opcode) := by
  obtain ⟨source, target, shape⟩ := opcode.signature_shape
  rw [shape] at all ⊢
  obtain ⟨type, is, rfl⟩ := convert_single all
  refine popStack_retypes.bind ?_
  rintro p1 _ ⟨rfl, rfl⟩
  obtain ⟨result, isResult, makes⟩ := unaryCode_makes kept shape is
  exact makes.pushed.mono fun _ _ same => same ▸ .cons isResult .nil

theorem visitConvertExpr_retypes {opcode : ConvertOpcode} (implemented : opcode.implemented = true) {takes : List Ty}
    (all : Convert opcode.signature.params.reverse takes) :
    Retypes Accepts locals takes (fun _ after => Convert opcode.signature.results.reverse after)
      (visitConvertExpr opcode) := by
  obtain ⟨source, target, shape⟩ := opcode.signature_shape
  rw [shape] at all ⊢
  obtain ⟨type, is, rfl⟩ := convert_single all
  refine popStack_retypes.bind ?_
  rintro p1 _ ⟨rfl, rfl⟩
  obtain ⟨result, isResult, makes⟩ := convertCode_makes implemented shape is
  exact makes.pushed.mono fun _ _ same => same ▸ .cons isResult .nil

theorem visitBinaryInst_retypes {opcode : BinaryOpcode} (kept : opcode.keepsTypes = true) {takes : List Ty}
    (all : Convert opcode.signature.params.reverse takes) :
    Retypes Accepts locals takes (fun _ after => Convert opcode.signature.results.reverse after)
      (visitBinaryInst opcode) := by
  obtain ⟨source, target, shape⟩ := BinaryOpcode.signature_shape kept
  rw [shape] at all ⊢
  obtain ⟨type, is, rfl⟩ := convert_pair all
  refine popStack_retypes.bind ?_
  rintro p1 _ ⟨isRight, rfl⟩
  refine popStack_retypes.bind ?_
  rintro p2 _ ⟨isLeft, rfl⟩
  obtain ⟨result, isResult, makes⟩ := binaryCode_makes kept shape (isRight ▸ is) (isLeft ▸ is)
  exact makes.pushed.mono fun _ _ same => same ▸ .cons isResult .nil

theorem visitCompareExpr_retypes {opcode : CompareOpcode} (kept : opcode.keepsTypes = true) {takes : List Ty}
    (all : Convert opcode.signature.params.reverse takes) :
    Retypes Accepts locals takes (fun _ after => Convert opcode.signature.results.reverse after)
      (visitCompareExpr opcode) := by
  obtain ⟨source, target, shape⟩ := opcode.signature_shape
  rw [shape] at all ⊢
  obtain ⟨type, is, rfl⟩ := convert_pair all
  refine popStack_retypes.bind ?_
  rintro p1 _ ⟨isRight, rfl⟩
  refine popStack_retypes.bind ?_
  rintro p2 _ ⟨isLeft, rfl⟩
  obtain ⟨rfl, makes⟩ := compareCode_makes kept shape (isRight ▸ is) (isLeft ▸ is)
  refine (makes locals []).bind ?_
  rintro ⟨ret, _⟩ _ ⟨isBit, rfl, rfl⟩
  have widened := cast_types .zext isBit (.inr (by decide : CastOp.accepts .zext (.int 1) i32Type = true))
  refine (show Makes i32Type (widenComparison ret none) from fun locals types => ?_).pushed.mono
    fun _ _ same => same ▸ .cons rfl .nil
  exact (widened.makes locals types).bind fun _ _ known => retypes_pure known

/-! ## Memory and globals -/

theorem memAt_retypes : Retypes Accepts locals types (fun _ after => after = types) (memAt environment) := by
  unfold memAt
  split
  · exact retypes_pure rfl
  · exact retypes_throw _

theorem gep_types {source : Ty} {base index : Value} {width : Nat} (isBase : base.type = .ptr)
    (isIndex : index.type = .int width) : Types (createGEP source base index) .ptr True := by
  refine createOp_types ?_
  have operands : [base, .null index.type, index].map Value.type = [.ptr, .int width, .int width] := by
    show [base.type, index.type, index.type] = _
    rw [isBase, isIndex]
  rw [operands]
  simp [Operation.wellTyped, Ty.isInt]

theorem load_types {address : Value} (is : address.type = .ptr) (stored : type ≠ .void) :
    Types (createLoad type address) type True := by
  refine createOp_types ?_
  rw [List.map_singleton, is]
  simpa [Operation.wellTyped] using stored

theorem store_types {address : Value} (is : address.type = .ptr) (stored : value.type ≠ .void) :
    Types (createStore value address) .void True := by
  refine createOp_types ?_
  rw [List.map_cons, List.map_singleton, is]
  simpa [Operation.wellTyped] using stored

theorem convertType?_ne_void {source : ValType} (is : convertType? source = some type) : type ≠ .void := by
  cases source <;> cases is <;> decide

theorem convertStackAddr_retypes (offset : Nat) : Retypes Accepts locals (.int 32 :: types)
    (fun address after => address.type = .ptr ∧ after = types) (convertStackAddr environment offset) := by
  refine (memAt_retypes environment).bind ?_
  rintro size _ rfl
  refine popStack_retypes.bind ?_
  rintro base _ ⟨isBase, rfl⟩
  have isOffset : (Value.int base.type.bits offset).type = .int 32 := by rw [isBase]; rfl
  refine ((binary_types isBase isOffset (by rfl)).makes locals _).bind ?_
  rintro sum _ ⟨isSum, rfl⟩
  split
  · exact (cast_types .intToPtr isSum (.inr (by decide))).makes locals _
  · exact (gep_types rfl isSum).makes locals _

theorem loadExtension_makes {opcode : LoadOpcode} (scalar : opcode.resultType ≠ .v128)
    (is : value.type = opcode.targetType) :
    ∃ result, convertType? opcode.resultType = some result ∧ Makes result (loadExtension opcode value) := by
  cases opcode
  case i32Load | i64Load | f32Load | f64Load => exact ⟨_, rfl, (Types.done is).makes⟩
  case i32Load8S | i32Load16S | i64Load8S | i64Load16S | i64Load32S | i32Load8U | i32Load16U | i64Load8U | i64Load16U
      | i64Load32U =>
    exact ⟨_, rfl, (cast_types _ is (.inr (by decide))).makes⟩
  all_goals exact absurd rfl scalar

theorem LoadOpcode.targetType_ne_void (opcode : LoadOpcode) : opcode.targetType ≠ .void := by
  cases opcode <;> decide

theorem visitLoadInst_retypes {opcode : LoadOpcode} (scalar : opcode.resultType ≠ .v128) (offset : Nat) :
    Retypes Accepts locals [.int 32] (fun _ after => Convert [opcode.resultType] after)
      (visitLoadInst environment opcode offset) := by
  refine (convertStackAddr_retypes environment offset).bind ?_
  rintro address _ ⟨isAddress, rfl⟩
  refine ((load_types isAddress opcode.targetType_ne_void).makes locals _).bind ?_
  rintro loaded _ ⟨isLoaded, rfl⟩
  obtain ⟨result, isResult, makes⟩ := loadExtension_makes scalar isLoaded
  exact makes.pushed.mono fun _ _ same => same ▸ .cons isResult .nil

theorem storeConversion_makes {opcode : StoreOpcode} (is : convertType? opcode.valueType = some value.type) :
    ∃ result, result ≠ .void ∧ Makes result (storeConversion opcode value) := by
  cases opcode
  case i32Store | i64Store | f32Store | f64Store | v128Store =>
    exact ⟨_, convertType?_ne_void is, (Types.done rfl).makes⟩
  all_goals
    exact ⟨_, by decide, (cast_types .trunc (Option.some.inj is).symm (.inr (by decide))).makes⟩

theorem visitStoreInst_retypes (opcode : StoreOpcode) (offset : Nat) (is : convertType? opcode.valueType = some type) :
    Retypes Accepts locals [type, .int 32] (fun _ after => after = []) (visitStoreInst environment opcode offset) := by
  refine popStack_retypes.bind ?_
  rintro val _ ⟨rfl, rfl⟩
  refine (convertStackAddr_retypes environment offset).bind ?_
  rintro address _ ⟨isAddress, rfl⟩
  obtain ⟨stored, notVoid, makes⟩ := storeConversion_makes is
  refine (makes locals _).bind ?_
  rintro converted _ ⟨rfl, rfl⟩
  refine ((store_types isAddress notVoid).makes locals _).bind ?_
  rintro _ _ ⟨_, rfl⟩
  exact retypes_pure rfl

theorem convertValType_retypes (source : ValType) : Retypes Accepts locals types
    (fun type after => convertType? source = some type ∧ after = types) (convertValType source) := by
  unfold convertValType
  split
  · rename_i found
    exact retypes_pure ⟨found, rfl⟩
  · exact retypes_throw _

theorem globalAt_retypes {index : Nat} {source : ValType} (found : environment.globs[index]? = some source) :
    Retypes Accepts locals types (fun type after => convertType? source = some type ∧ after = types)
      (globalAt environment index) := by
  rw [globalAt, found]
  exact convertValType_retypes source

theorem visitGlobalGet_retypes {index : Nat} {source : ValType} (found : environment.globs[index]? = some source) :
    Retypes Accepts locals [] (fun _ after => Convert [source] after) (visitGlobalGet environment index) := by
  refine (globalAt_retypes environment found).bind ?_
  rintro type _ ⟨is, rfl⟩
  exact (load_types rfl (convertType?_ne_void is)).makes.pushed.mono fun _ _ same => same ▸ .cons is .nil

theorem visitGlobalSet_retypes {index : Nat} {source : ValType} (found : environment.globs[index]? = some source)
    (is : convertType? source = some type) :
    Retypes Accepts locals [type] (fun _ after => after = []) (visitGlobalSet environment index) := by
  refine popStack_retypes.bind ?_
  rintro val _ ⟨rfl, rfl⟩
  refine (globalAt_retypes environment found).bind ?_
  rintro _ _ ⟨_, rfl⟩
  refine ((store_types rfl (convertType?_ne_void is)).makes locals _).bind ?_
  rintro _ _ ⟨_, rfl⟩
  exact retypes_pure rfl

theorem visitMemoryGrow_retypes : Retypes Accepts locals [.int 32] (fun _ after => after = [.int 32]) visitMemoryGrow := by
  refine popStack_retypes.bind ?_
  rintro _ _ ⟨_, rfl⟩
  exact pushStack_retypes (.int 32 0)

theorem visitMemoryCopy_retypes : Retypes Accepts locals [.int 32, .int 32, .int 32] (fun _ after => after = [])
    (visitMemoryCopy environment) := by
  refine popStack_retypes.bind ?_
  rintro num _ ⟨isNum, rfl⟩
  refine (convertStackAddr_retypes environment 0).bind ?_
  rintro src _ ⟨isSrc, rfl⟩
  refine (convertStackAddr_retypes environment 0).bind ?_
  rintro dest _ ⟨isDest, rfl⟩
  have accepted : Types (createMemCpy dest src num) .void True := createOp_types (by
    rw [List.map_cons, List.map_cons, List.map_singleton, isNum, isSrc, isDest]
    rfl)
  refine (accepted.makes locals _).bind ?_
  rintro _ _ ⟨_, rfl⟩
  exact retypes_pure rfl

theorem visitMemoryFill_retypes : Retypes Accepts locals [.int 32, .int 32, .int 32] (fun _ after => after = [])
    (visitMemoryFill environment) := by
  refine popStack_retypes.bind ?_
  rintro num _ ⟨isNum, rfl⟩
  refine popStack_retypes.bind ?_
  rintro byte _ ⟨isByte, rfl⟩
  refine ((cast_types .trunc isByte (.inr (by decide : CastOp.accepts .trunc (.int 32) i8Type = true))).makes locals _).bind ?_
  rintro narrow _ ⟨isNarrow, rfl⟩
  refine (convertStackAddr_retypes environment 0).bind ?_
  rintro dest _ ⟨isDest, rfl⟩
  have accepted : Types (createMemSet dest narrow num) .void True := createOp_types (by
    rw [List.map_cons, List.map_cons, List.map_singleton, isNum, isNarrow, isDest]
    rfl)
  refine (accepted.makes locals _).bind ?_
  rintro _ _ ⟨_, rfl⟩
  exact retypes_pure rfl

/-! ## Calls -/

/-- The arguments of a call are popped from the last one to the first. -/
theorem popArguments_retypes (front : List Ty) : Retypes Accepts locals (front ++ types)
    (fun callArgs after => callArgs.map Value.type = front.reverse ∧ after = types) (popArguments front.length) := by
  induction front with
  | nil => exact retypes_pure ⟨rfl, rfl⟩
  | cons type front ih =>
      refine popStack_retypes.bind ?_
      rintro last _ ⟨isLast, rfl⟩
      refine ih.bind ?_
      rintro before _ ⟨areBefore, rfl⟩
      exact retypes_pure ⟨by rw [List.map_append, areBefore, List.map_singleton, isLast, List.reverse_cons], rfl⟩

theorem popAll_retypes (front : List Ty) : Retypes Accepts locals front
    (fun callArgs after => callArgs.map Value.type = front.reverse ∧ after = []) (popArguments front.length) := by
  have pops : Retypes Accepts locals (front ++ []) _ (popArguments front.length) := popArguments_retypes front
  rwa [List.append_nil] at pops

theorem convertParams_retypes (sources : List ValType) : Retypes Accepts locals types
    (fun params after => Convert sources params ∧ after = types) (convertParams sources) := by
  induction sources with
  | nil => exact retypes_pure ⟨.nil, rfl⟩
  | cons source sources ih =>
      refine (convertValType_retypes source).bind ?_
      rintro converted _ ⟨is, rfl⟩
      refine ih.bind ?_
      rintro params _ ⟨all, rfl⟩
      exact retypes_pure ⟨.cons is all, rfl⟩

theorem convertReturnType_retypes (sources : List ValType) : Retypes Accepts locals types
    (fun result after => (∀ source ∈ sources.head?, convertType? source = some result) ∧ after = types)
    (convertReturnType sources) := by
  cases sources with
  | nil => exact retypes_pure ⟨fun _ member => (Option.not_mem_none _ member).elim, rfl⟩
  | cons source sources =>
      refine (convertValType_retypes source).mono fun result after ⟨is, same⟩ => ⟨fun other member => ?_, same⟩
      rwa [← Option.some.inj member]

/-- The end of a call: its result is pushed if there is one. -/
theorem pushOne_retypes {sources : List ValType} (single : ¬ 1 < sources.length) {ret : Value}
    (is : ∀ source ∈ sources.head?, convertType? source = some ret.type) :
    Retypes Accepts locals [] (fun _ after => Convert sources.reverse after)
      (if sources.length ≠ 0 then Visit.pushStack ret else pure () : Emit Unit) := by
  rcases sources with _ | ⟨source, _ | ⟨_, _⟩⟩
  · exact retypes_pure .nil
  · exact (pushStack_retypes ret).mono fun _ _ same => same ▸ .cons (is source rfl) .nil
  · simp at single

/-- The arguments that are popped have the types of the parameters. -/
theorem arguments_params {sources : List ValType} {front params : List Ty} {callArgs : List Value}
    (all : Convert sources.reverse front) (are : callArgs.map Value.type = front.reverse) (same : Convert sources params) :
    callArgs.map Value.type = params := by
  refine are.trans (Convert.unique ?_ same)
  exact List.forall₂_reverse_iff.mp (by rwa [List.reverse_reverse])

theorem visitCallInst_retypes {func : Nat} {sig : FuncSignature} (found : environment.funcs[func]? = some sig)
    {takes : List Ty} (all : Convert sig.params.reverse takes) :
    Retypes Accepts locals takes (fun _ after => Convert sig.results.reverse after) (visitCallInst environment func) := by
  have count : sig.params.length = takes.length := by simpa using all.length_eq
  unfold visitCallInst
  rw [found]
  refine (convertParams_retypes _).bind ?_
  rintro params after ⟨converted, same⟩
  subst after
  refine (convertReturnType_retypes _).bind ?_
  rintro result after ⟨isResult, same⟩
  subst after
  rw [count]
  refine (popAll_retypes takes).bind ?_
  rintro callArgs _ ⟨are, rfl⟩
  dsimp only
  split
  · exact retypes_throw _
  · rename_i single
    have accepted : Types (createOp (.call func params) result callArgs) result True :=
      createOp_types (by rw [arguments_params all are converted]; simp [Operation.wellTyped])
    refine (accepted.makes locals _).bind ?_
    rintro ret _ ⟨isRet, rfl⟩
    exact pushOne_retypes single fun source member => isRet ▸ isResult source member

theorem visitCallIndirectInst_retypes (sig : FuncSignature) (table : Nat) {takes : List Ty}
    (all : Convert (sig.params ++ [ValType.i32]).reverse takes) :
    Retypes Accepts locals takes (fun _ after => Convert sig.results.reverse after)
      (visitCallIndirectInst environment sig table) := by
  rw [List.reverse_append] at all
  obtain ⟨_, front, isIndex, rest, rfl⟩ := List.forall₂_cons_left_iff.mp all
  replace rest : Convert sig.params.reverse front := rest
  obtain rfl := Option.some.inj isIndex
  have count : sig.params.length = front.length := by simpa using rest.length_eq
  unfold visitCallIndirectInst
  split
  · exact retypes_throw _
  rename_i size _
  refine popStack_retypes.bind ?_
  rintro index after ⟨isIndex, same⟩
  subst after
  refine (convertParams_retypes _).bind ?_
  rintro params after ⟨converted, same⟩
  subst after
  dsimp only
  split
  · exact retypes_throw _
  · rename_i single
    refine (convertReturnType_retypes _).bind ?_
    rintro result after ⟨isResult, same⟩
    subst after
    refine ((gep_types rfl isIndex).makes locals _).bind ?_
    rintro ptr after ⟨isPtr, same⟩
    subst after
    refine ((load_types isPtr (by decide)).makes locals _).bind ?_
    rintro funcPtr after ⟨isFuncPtr, same⟩
    subst after
    rw [count]
    refine (popAll_retypes front).bind ?_
    rintro callArgs _ ⟨are, rfl⟩
    have accepted : Types (createOp (.callIndirect params) result (funcPtr :: callArgs)) result True :=
      createOp_types (by rw [List.map_cons, isFuncPtr, arguments_params rest are converted]; simp [Operation.wellTyped])
    refine (accepted.makes locals _).bind ?_
    rintro ret _ ⟨isRet, rfl⟩
    exact pushOne_retypes single fun source member => isRet ▸ isResult source member

/-! ## Lanes -/

/-- The extractions of lanes that are extended to 32 bits. -/
def SimdLaneOpcode.keepsTypes : SimdLaneOpcode → Bool
  | .i8x16ExtractLaneS | .i8x16ExtractLaneU | .i16x8ExtractLaneS | .i16x8ExtractLaneU | .i32x4ExtractLane => true
  | _ => false

theorem extractLane_types {lanes width : Nat} (imm : Nat) (sign : Bool) (is : value.type = .int 128)
    (size : lanes * width = 128) (narrow : width ≤ 32) :
    Types (createExtractLane value (.vector lanes (.int width)) imm sign) (.int 32) True := by
  have accepts : CastOp.accepts .bitCast (.int 128) (.vector lanes (.int width)) = true := by
    simp [CastOp.accepts, Ty.size, Ty.lanes, Ty.laneBits, Ty.scalar, Ty.bits, Ty.isInt, size]
  have extends_ : ∀ kind : CastOp, kind = .zext ∨ kind = .sext →
      Ty.int width = .int 32 ∨ kind.accepts (.int width) (.int 32) = true := by
    intro kind isKind
    rcases Nat.lt_or_eq_of_le narrow with less | rfl
    · rcases isKind with rfl | rfl <;>
        simp [CastOp.accepts, Ty.sameShape, Ty.isVector, Ty.lanes, Ty.laneBits, Ty.scalar, Ty.bits, Ty.isInt, less]
    · exact .inl rfl
  refine (cast_types .bitCast is (.inr accepts)).andThen fun vector isVector => ?_
  refine (extractElement_types imm isVector).andThen fun ret isRet => ?_
  split
  · exact cast_types .sext isRet (extends_ .sext (.inr rfl))
  · exact cast_types .zext isRet (extends_ .zext (.inl rfl))

theorem visitSimdLaneOp_retypes {opcode : SimdLaneOpcode} (kept : opcode.keepsTypes = true) (val : Nat) {takes : List Ty}
    (all : Convert opcode.signature.params.reverse takes) :
    Retypes Accepts locals takes (fun _ after => Convert opcode.signature.results.reverse after)
      (visitSimdLaneOp opcode val) := by
  have extracts : ∀ {lanes width : Nat} (sign : Bool), lanes * width = 128 → width ≤ 32 → ∀ {takes : List Ty},
      Convert [.v128] takes → Retypes Accepts locals takes (fun _ after => Convert [.i32] after)
        (do
          let top ← Visit.popStack
          let ret ← createExtractLane top (.vector lanes (.int width)) val sign
          Visit.pushStack ret) := by
    intro lanes width sign size narrow takes all
    obtain ⟨type, is, rfl⟩ := convert_single all
    refine popStack_retypes.bind ?_
    rintro top _ ⟨rfl, rfl⟩
    have known : top.type = .int 128 := (Option.some.inj is).symm
    exact (extractLane_types val sign known size narrow).makes.pushed.mono fun _ _ same => same ▸ .cons rfl .nil
  cases opcode
  case i8x16ExtractLaneS => exact extracts true (by rfl) (by decide) all
  case i8x16ExtractLaneU => exact extracts false (by rfl) (by decide) all
  case i16x8ExtractLaneS => exact extracts true (by rfl) (by decide) all
  case i16x8ExtractLaneU => exact extracts false (by rfl) (by decide) all
  case i32x4ExtractLane => exact extracts true (by rfl) (by decide) all
  all_goals exact absurd kept Bool.false_ne_true

/-- A lane load gets the element type of an array, and there is none. -/
theorem visitSimdLoadLane_retypes (opcode : LoadLaneOpcode) (val : Nat) {leaves : Unit → List Ty → Prop}
    {first second : Ty} : Retypes Accepts locals [first, second] leaves (visitSimdLoadLane opcode val) where
  run {_ before after result} _ _ ran := by
    exfalso
    obtain ⟨vec, _, _, ran⟩ := bind_ok.mp ran
    obtain ⟨address, _, _, ran⟩ := bind_ok.mp ran
    obtain ⟨ret, _, ran, _⟩ := bind_ok.mp ran
    obtain ⟨vector, _, _, ran⟩ := bind_ok.mp ran
    obtain ⟨element, _, ran, _⟩ := bind_ok.mp ran
    cases opcode <;> cases ran

/-! ## All instructions -/

/-- The instructions that take and leave values of the LLVM types of their types. -/
def Instr.keepsTypes : Instr → Bool
  | .unary opcode => opcode.keepsTypes
  | .binary opcode => opcode.keepsTypes
  | .compare opcode => opcode.keepsTypes
  | .convert opcode => opcode.implemented
  | .load opcode _ => opcode.resultType ≠ .v128
  | .simdLaneOp opcode _ => opcode.keepsTypes
  | .simdStoreLane _ _ _ | .simdShuffle _ => false
  | _ => true

theorem Instr.keepsTypes_tracked {instr : Instr} (kept : instr.keepsTypes = true) : instr.desynchronises = false := by
  cases instr with
  | binary opcode => cases opcode <;> first | rfl | exact absurd kept Bool.false_ne_true
  | convert opcode => simpa [Instr.desynchronises, Instr.keepsTypes] using kept
  | simdStoreLane _ _ _ => exact absurd kept Bool.false_ne_true
  | _ => rfl

theorem visitInstr_retypesAt {instr : Instr} (kept : instr.keepsTypes = true) :
    (instructions environment).RetypesAt Accepts (Instr.signature environment) instr := by
  intro sig takes locals found all
  show Retypes Accepts locals takes _ (visitInstr environment instr)
  cases instr with
  | unary opcode =>
      obtain rfl := Option.some.inj found
      exact visitUnaryInst_retypes kept all
  | binary opcode =>
      obtain rfl := Option.some.inj found
      exact visitBinaryInst_retypes kept all
  | compare opcode =>
      obtain rfl := Option.some.inj found
      exact visitCompareExpr_retypes kept all
  | convert opcode =>
      obtain rfl := Option.some.inj found
      exact visitConvertExpr_retypes kept all
  | const value =>
      obtain rfl := Option.some.inj found
      obtain rfl := List.forall₂_nil_left_iff.mp all
      refine (pushStack_retypes (visitConst value)).mono fun _ _ same => same ▸ .cons ?_ .nil
      cases value <;> rfl
  | call func => exact visitCallInst_retypes environment found all
  | callIndirect sig' table =>
      obtain rfl := guarded_eq found
      exact visitCallIndirectInst_retypes environment sig' table all
  | load opcode offset =>
      obtain rfl := guarded_eq found
      obtain ⟨type, is, rfl⟩ := convert_single all
      obtain rfl := Option.some.inj is
      exact visitLoadInst_retypes environment (of_decide_eq_true kept) offset
  | store opcode offset =>
      obtain rfl := guarded_eq found
      obtain ⟨type, _, is, rest, rfl⟩ := List.forall₂_cons_left_iff.mp all
      obtain ⟨_, isAddress, rfl⟩ := convert_single rest
      obtain rfl := Option.some.inj isAddress
      exact (visitStoreInst_retypes environment opcode offset is).mono fun _ _ same => same ▸ .nil
  | globalGet index =>
      obtain ⟨source, there, rfl⟩ := Option.map_eq_some_iff.mp found
      obtain rfl := List.forall₂_nil_left_iff.mp all
      exact visitGlobalGet_retypes environment there
  | globalSet index =>
      obtain ⟨source, there, rfl⟩ := Option.map_eq_some_iff.mp found
      obtain ⟨type, is, rfl⟩ := convert_single all
      exact (visitGlobalSet_retypes environment there is).mono fun _ _ same => same ▸ .nil
  | memoryGrow =>
      obtain rfl := guarded_eq found
      obtain ⟨_, is, rfl⟩ := convert_single all
      obtain rfl := Option.some.inj is
      exact visitMemoryGrow_retypes.mono fun _ _ same => same ▸ .cons rfl .nil
  | memorySize =>
      obtain rfl := guarded_eq found
      obtain rfl := List.forall₂_nil_left_iff.mp all
      exact (pushStack_retypes (.int 32 0)).mono fun _ _ same => same ▸ .cons rfl .nil
  | memoryCopy =>
      obtain rfl := guarded_eq found
      obtain rfl : takes = [.int 32, .int 32, .int 32] := Convert.unique all (.cons rfl (.cons rfl (.cons rfl .nil)))
      exact (visitMemoryCopy_retypes environment).mono fun _ _ same => same ▸ .nil
  | memoryFill =>
      obtain rfl := guarded_eq found
      obtain rfl : takes = [.int 32, .int 32, .int 32] := Convert.unique all (.cons rfl (.cons rfl (.cons rfl .nil)))
      exact (visitMemoryFill_retypes environment).mono fun _ _ same => same ▸ .nil
  | simdLaneOp opcode val =>
      obtain rfl := Option.some.inj found
      exact visitSimdLaneOp_retypes kept val all
  | simdLoadLane opcode offset val =>
      obtain rfl := guarded_eq found
      obtain ⟨_, _, _, rest, rfl⟩ := List.forall₂_cons_left_iff.mp all
      obtain ⟨_, _, rfl⟩ := convert_single rest
      exact visitSimdLoadLane_retypes opcode val
  | simdStoreLane _ _ _ => exact absurd kept Bool.false_ne_true
  | simdShuffle _ => exact absurd kept Bool.false_ne_true
  | other type sig' => exact retypes_throw _

end Visits

end WasmToLlvm.Instruction
