import WasmToLlvm.Instruction.Memory
import WasmToLlvm.Instruction.Typing

/-!
# Single lanes

Extraction and replacement of a lane.
-/

set_option autoImplicit false

namespace WasmToLlvm.Instruction

open Llvm Wasm Block Library

/-- The shapes of the instructions on single lanes. -/
inductive LaneShape where
  | i8x16 | i16x8 | i32x4 | i64x2 | f32x4 | f64x2
  deriving DecidableEq, Repr

namespace LaneShape

def type : LaneShape → Ty
  | i8x16 => i8x16Type
  | i16x8 => i16x8Type
  | i32x4 => i32x4Type
  | i64x2 => i64x2Type
  | f32x4 => f32x4Type
  | f64x2 => f64x2Type

/-- The LLVM type of the scalar. -/
def scalar : LaneShape → Ty
  | i8x16 | i16x8 | i32x4 => i32Type
  | i64x2 => i64Type
  | f32x4 => .float
  | f64x2 => .double

/-- The sign matters for lanes that are narrower than the scalar. -/
def extractLane : LaneShape → Bool → SimdLaneOpcode
  | i8x16, true => .i8x16ExtractLaneS
  | i8x16, false => .i8x16ExtractLaneU
  | i16x8, true => .i16x8ExtractLaneS
  | i16x8, false => .i16x8ExtractLaneU
  | i32x4, _ => .i32x4ExtractLane
  | i64x2, _ => .i64x2ExtractLane
  | f32x4, _ => .f32x4ExtractLane
  | f64x2, _ => .f64x2ExtractLane

def replaceLane : LaneShape → SimdLaneOpcode
  | i8x16 => .i8x16ReplaceLane
  | i16x8 => .i16x8ReplaceLane
  | i32x4 => .i32x4ReplaceLane
  | i64x2 => .i64x2ReplaceLane
  | f32x4 => .f32x4ReplaceLane
  | f64x2 => .f64x2ReplaceLane

/-- A lane as it is extracted. -/
def extended (shape : LaneShape) (sign : Bool) (lane : Nat) : Nat :=
  LoadKind.extendLane sign shape.type.laneBits shape.scalar.size lane

end LaneShape

/-- Replaces a lane and takes one. -/
def replaceThenExtract (environment : Environment) (shape : LaneShape) (sign : Bool) (i j : Nat) : Emit Unit := do
  visitInstr environment (.simdLaneOp shape.replaceLane i)
  visitInstr environment (.simdLaneOp (shape.extractLane sign) j)

/-- The laws for a lane that is taken from a vector in which another one or the same one was
replaced. The scalar is on the stack, above the vector. -/
structure LaneLaws (floats : Floats) (space : Space) (environment : Environment) (setting : Setting)
    (vec : Value) (rest : List Value) (shape : LaneShape) (v x : Nat) : Prop where
  typed : ∀ sign, ∀ i < shape.type.lanes, ∀ j < shape.type.lanes,
    WellTyped (replaceThenExtract environment shape sign i j) setting.straight
  same : ∀ sign, ∀ i < shape.type.lanes,
    Leaves floats space setting (replaceThenExtract environment shape sign i i) rest shape.scalar
      (some [some (shape.extended sign (x % 2 ^ shape.type.laneBits))])
  other : ∀ sign, ∀ i < shape.type.lanes, ∀ j < shape.type.lanes, i ≠ j →
    ∃ outcome, Leaves floats space setting (replaceThenExtract environment shape sign i j) rest shape.scalar
        (some outcome) ∧
      Leaves floats space (setting.withStack (vec :: rest))
        (visitInstr environment (.simdLaneOp (shape.extractLane sign) j)) rest shape.scalar (some outcome)
  lane : ∀ sign, ∀ j < shape.type.lanes,
    Leaves floats space (setting.withStack (vec :: rest))
      (visitInstr environment (.simdLaneOp (shape.extractLane sign) j)) rest shape.scalar
      (some [some (shape.extended sign (v / 2 ^ (shape.type.laneBits * j) % 2 ^ shape.type.laneBits))])

section Code

variable {floats : Floats} {space : Space} {environment : Environment} {setting : Setting}
  {vec top : Value} {rest : List Value} {shape : LaneShape} {sign : Bool} {i j v x : Nat} {type : Ty}

/-- The code of a replacement behind its operands. -/
def replaceCode (shape : LaneShape) (vec x : Value) (imm : Nat) : Emit Value :=
  match shape with
  | .i8x16 => createReplaceNarrow i8x16Type i8Type vec x imm
  | .i16x8 => createReplaceNarrow i16x8Type i16Type vec x imm
  | .i32x4 | .i64x2 | .f32x4 | .f64x2 => createReplaceLane shape.type vec x imm

theorem visitInstr_extract :
    ∃ sign', visitInstr environment (.simdLaneOp (shape.extractLane sign) j) =
      Visit.popStack >>= fun vec => createExtractLane vec shape.type j sign' >>= Visit.pushStack := by
  cases shape <;> cases sign <;> exact ⟨_, rfl⟩

/-- What was pushed is popped. -/
theorem pushStack_popStack {α : Type} (value : Value) (next : Value → Emit α) :
    (Visit.pushStack value >>= fun _ => Visit.popStack >>= next) = next value :=
  rfl

theorem replaceThenExtract_eq :
    ∃ sign', replaceThenExtract environment shape sign i j =
      Visit.popStack >>= fun x => Visit.popStack >>= fun vec =>
        (replaceCode shape vec x i >>= fun ret => createExtractLane ret shape.type j sign') >>= Visit.pushStack := by
  obtain ⟨sign', extracts⟩ := @visitInstr_extract environment shape sign j
  refine ⟨sign', ?_⟩
  rw [replaceThenExtract, extracts]
  cases shape <;> simp only [visitInstr, visitSimdLaneOp, LaneShape.replaceLane, LaneShape.type, simdLaneCode,
    replaceCode, bind_assoc, pushStack_popStack]

/-! ## Types -/

variable {value left right : Value} {type' : Ty}

theorem createCast_typesOf (kind : CastOp) (isValue : value.type = type) :
    Types (createCast kind value type') type' (type = type' ∨ kind.accepts type type' = true) := by
  by_cases same : type = type'
  · rw [createCast, if_pos (isValue.trans same)]
    exact (Types.done (isValue.trans same)).congr (iff_of_true trivial (Or.inl same))
  · refine (createCast_types kind isValue same).congr ?_
    exact (or_iff_right same).symm

theorem createExtractElement_types {lanes index : Nat} {element : Ty} (isVector : value.type = .vector lanes element) :
    Types (createExtractElement value index) element True := by
  have types := create_types (.op .extractElement element [value, .int 64 index])
  have isIndex : (Value.int 64 index).type = .int 64 := rfl
  rw [createExtractElement, isVector]
  refine types.congr (iff_of_true ?_ trivial)
  simp [Plain.wellTyped, Operation.wellTyped, isVector, isIndex, Ty.isVector, Ty.scalar, Ty.isInt]

theorem createInsertElement_types {index : Nat} (isVector : left.type = type) (isElement : right.type = type') :
    Types (createInsertElement left right index) type (type.isVector = true ∧ type' = type.scalar) := by
  have types := create_types (.op .insertElement left.type [left, right, .int 64 index])
  have isIndex : (Value.int 64 index).type = .int 64 := rfl
  rw [Plain.type, isVector] at types
  rw [createInsertElement, createOp, isVector]
  refine types.congr ?_
  simp [Plain.wellTyped, Operation.wellTyped, isVector, isElement, isIndex, Ty.isInt]

theorem createExtractLane_types {lanes : Nat} {element : Ty} (isValue : value.type = type) :
    Types (createExtractLane value (.vector lanes element) j sign) i32Type
      ((type = .vector lanes element ∨ CastOp.accepts .bitCast type (.vector lanes element) = true) ∧ True ∧
        (element = i32Type ∨ CastOp.accepts (if sign then .sext else .zext) element i32Type = true)) := by
  refine (createCast_typesOf .bitCast isValue).bind fun vector isVector =>
    (createExtractElement_types isVector).bind fun ret isRet => ?_
  cases sign with
  | true => exact createCast_typesOf .sext isRet
  | false => exact createCast_typesOf .zext isRet

theorem createReplaceNarrow_types {lanes : Nat} {narrow : Ty} (isVec : vec.type = type) (isTop : top.type = type') :
    Types (createReplaceNarrow (.vector lanes narrow) narrow vec top i) narrow
      ((type = .vector lanes narrow ∨ CastOp.accepts .bitCast type (.vector lanes narrow) = true) ∧
        (type' = narrow ∨ CastOp.accepts .trunc type' narrow = true) ∧
          (narrow.isVector = true ∧ type' = narrow.scalar)) :=
  (createCast_typesOf .bitCast isVec).bind fun _ _ => (createCast_typesOf .trunc isTop).bind fun _ isRet =>
    createInsertElement_types isRet isTop

theorem createReplaceLane_types {lanes : Nat} {element : Ty} (isVec : vec.type = type) (isTop : top.type = type') :
    Types (createReplaceLane (.vector lanes element) vec top i) (.vector lanes element)
      ((type = .vector lanes element ∨ CastOp.accepts .bitCast type (.vector lanes element) = true) ∧
        ((Ty.vector lanes element).isVector = true ∧ type' = element)) :=
  (createCast_typesOf .bitCast isVec).bind fun _ isRet => createInsertElement_types isRet isTop

/-- A narrow scalar is put in the place of the vector, and a wide lane does not fit into 32
bits. -/
theorem replaceThenExtract_rejected (stack : setting.straight.stack = top :: vec :: rest)
    (isTop : top.type = shape.scalar) (wrong : shape ≠ .i32x4) :
    ¬WellTyped (replaceThenExtract environment shape sign i j) setting.straight := by
  obtain ⟨sign', code⟩ := @replaceThenExtract_eq environment shape sign i j
  rw [code, wellTyped_popStack stack, wellTyped_popStack rfl]
  have narrow : ∀ {lanes width : Nat}, Types
      (createReplaceNarrow (.vector lanes (.int width)) (.int width) vec top i >>= fun ret =>
        createExtractLane ret (.vector lanes (.int width)) j sign') i32Type _ := fun {lanes width} =>
    (createReplaceNarrow_types rfl isTop).bind fun ret isRet => createExtractLane_types isRet
  have wide : ∀ {lanes : Nat} {element : Ty}, Types
      (createReplaceLane (.vector lanes element) vec top i >>= fun ret =>
        createExtractLane ret (.vector lanes element) j sign') i32Type _ := fun {lanes element} =>
    (createReplaceLane_types rfl isTop).bind fun ret isRet => createExtractLane_types isRet
  intro typed
  cases shape with
  | i8x16 => cases (narrow.wellTyped.mp typed).1.2.2.1
  | i16x8 => cases (narrow.wellTyped.mp typed).1.2.2.1
  | i32x4 => exact wrong rfl
  | i64x2 => exact absurd (wide.wellTyped.mp typed).2.2.2 (by cases sign' <;> decide)
  | f32x4 => exact absurd (wide.wellTyped.mp typed).2.2.2 (by cases sign' <;> decide)
  | f64x2 => exact absurd (wide.wellTyped.mp typed).2.2.2 (by cases sign' <;> decide)

theorem IsV128.accepts (isV : IsV128 space setting vec v) {shape : Ty} (size : shape.size = 128)
    (scalar : shape.scalar.isInt ∨ shape.scalar.isFloat) :
    vec.type = shape ∨ CastOp.accepts .bitCast vec.type shape = true := by
  refine Or.inr ?_
  simp [CastOp.accepts, isV.size, size, isV.scalar, scalar]

/-! ## Lanes of 32 bits -/

theorem createExtractLane_computes {datum : Datum} (inside : j < 4)
    (casts : Computes floats space setting (createCast .bitCast value i32x4Type) i32x4Type (some datum)) :
    Computes floats space setting (createExtractLane value i32x4Type j sign) i32Type (some [datum[j]?.join]) := by
  unfold createExtractLane
  have quiet : ∀ ret : Value, Quiet (if sign then createCast .sext ret i32Type else createCast .zext ret i32Type) := by
    intro ret
    cases sign <;> simp
  refine casts.andThen (createCast_quiet ..) (fun _ => quiet_bind (createExtractElement_quiet ..) quiet)
    fun _ isVector => ?_
  refine (createExtractElement_computes isVector (by omega)).andThen (createExtractElement_quiet ..) quiet
    fun _ isRet => ?_
  -- the cast to the type of the lane is no instruction
  cases sign with
  | true => exact createCast_same isRet
  | false => exact createCast_same isRet

theorem extended_i32x4 {lane : Nat} (small : lane < 2 ^ 32) : LaneShape.extended .i32x4 sign lane = lane := by
  cases sign with
  | true => exact wrap_signed small
  | false => rfl

theorem ofBits_lane (inside : j < 4) : (Datum.ofBits i32x4Type v)[j]?.join = some (v / 2 ^ (32 * j) % 2 ^ 32) := by
  have lane : (Datum.ofBits i32x4Type v)[j]? = ((unpack 32 4 v)[j]?).map some := List.getElem?_map ..
  rw [lane, unpack_getElem? inside]
  rfl

/-- A lane that is extracted by itself. -/
theorem extract_leaves (isV : IsV128 space setting vec v) (inside : j < 4) :
    Leaves floats space (setting.withStack (vec :: rest))
      (visitInstr environment (.simdLaneOp (LaneShape.extractLane .i32x4 sign) j)) rest i32Type
      (some [some (v / 2 ^ (32 * j) % 2 ^ 32)]) := by
  obtain ⟨sign', code⟩ := @visitInstr_extract environment .i32x4 sign j
  rw [code, ← ofBits_lane inside]
  have computes : Computes floats space (setting.withStack rest) (createExtractLane vec i32x4Type j sign')
      i32Type _ := createExtractLane_computes inside (bitCast_computes (isV.popped rest) i32x4Type)
  have leaves := computes.leaves (createExtractLane_quiet ..)
  exact leaves.popStack rfl fun value => (createExtractLane_quiet ..).appends.bind pushStack_appends

/-- A lane that is extracted after a replacement. -/
theorem replaceThenExtract_leaves (stack : setting.straight.stack = top :: vec :: rest)
    (isV : IsV128 space setting vec v) (isTop : IsInt space setting top (32, x)) (insideI : i < 4) (insideJ : j < 4) :
    Leaves floats space setting (replaceThenExtract environment .i32x4 sign i j) rest i32Type
      (some [((Datum.ofBits i32x4Type v).set i (some x))[j]?.join]) := by
  obtain ⟨sign', code⟩ := @replaceThenExtract_eq environment .i32x4 sign i j
  rw [code]
  have quiet : ∀ x vec, Quiet (replaceCode .i32x4 vec x i >>= fun ret => createExtractLane ret i32x4Type j sign') :=
    fun x vec => quiet_bind (createReplaceLane_quiet ..) fun _ => createExtractLane_quiet ..
  have length : (Datum.ofBits i32x4Type v).length = 4 := by
    rw [Datum.ofBits, List.length_map, unpack_length]
    rfl
  have computes : Computes floats space (setting.withStack rest)
      (replaceCode .i32x4 vec top i >>= fun ret => createExtractLane ret i32x4Type j sign') i32Type
      (some [((Datum.ofBits i32x4Type v).set i (some x))[j]?.join]) := by
    have replaced : Computes floats space (setting.withStack rest) (replaceCode .i32x4 vec top i) i32x4Type
        (some ((Datum.ofBits i32x4Type v).set i (some x))) := by
      unfold replaceCode createReplaceLane
      refine (bitCast_computes (isV.popped rest) i32x4Type).andThen (createCast_quiet ..) (fun _ =>
        createInsertElement_quiet ..) fun later isVector => ?_
      have isScalar := (isTop.holds.stack rest).later later
      exact createInsertElement_computes isVector isScalar (by omega) (by omega)
    exact replaced.andThen (createReplaceLane_quiet ..) (fun _ => createExtractLane_quiet ..) fun _ isRet =>
      createExtractLane_computes insideJ (createCast_same isRet)
  have leaves := computes.leaves (quiet top vec)
  have second : Leaves floats space (setting.withStack (vec :: rest)) (Visit.popStack >>= fun vec =>
      (replaceCode .i32x4 vec top i >>= fun ret => createExtractLane ret i32x4Type j sign') >>= Visit.pushStack)
      rest i32Type _ :=
    leaves.popStack rfl fun vec => (quiet top vec).appends.bind pushStack_appends
  exact second.popStack stack fun x => popStack_appends.bind fun vec => (quiet x vec).appends.bind pushStack_appends

theorem replaceThenExtract_typed (stack : setting.straight.stack = top :: vec :: rest)
    (isV : IsV128 space setting vec v) (isTop : top.type = i32Type) :
    WellTyped (replaceThenExtract environment .i32x4 sign i j) setting.straight := by
  obtain ⟨sign', code⟩ := @replaceThenExtract_eq environment .i32x4 sign i j
  have types : Types (createReplaceLane i32x4Type vec top i >>= fun ret => createExtractLane ret i32x4Type j sign')
      i32Type _ := (createReplaceLane_types rfl isTop).bind fun ret isRet => createExtractLane_types isRet
  rw [code, wellTyped_popStack stack, wellTyped_popStack rfl]
  exact types.wellTyped.mpr ⟨⟨isV.accepts rfl (Or.inl rfl), rfl, rfl⟩, Or.inl rfl, trivial, Or.inl rfl⟩

/-- The laws hold for lanes of 32-bit integers, and for no other shape. -/
theorem visitInstr_laneLaws_iff (stack : setting.straight.stack = top :: vec :: rest)
    (isV : IsV128 space setting vec v) (isTop : top.type = shape.scalar)
    (isX : Holds space setting top top.type (Datum.ofBits top.type x)) (small : x < 2 ^ top.type.size) :
    LaneLaws floats space environment setting vec rest shape v x ↔ shape = .i32x4 := by
  constructor
  · intro laws
    by_contra wrong
    have some_ : 0 < shape.type.lanes := by cases shape <;> decide
    exact replaceThenExtract_rejected stack isTop wrong (laws.typed true 0 some_ 0 some_)
  · intro is
    subst is
    have isInt : top.type = i32Type := isTop
    rw [isInt] at isX small
    rw [Ty.size_int] at small
    rw [Datum.ofBits_int small] at isX
    have scalar : IsInt space setting top (32, x) := ⟨isX, small⟩
    have length : (Datum.ofBits i32x4Type v).length = 4 := by
      rw [Datum.ofBits, List.length_map, unpack_length]
      rfl
    refine ⟨fun sign i insideI j insideJ => replaceThenExtract_typed stack isV isInt,
      fun sign i inside => ?_, fun sign i insideI j insideJ different => ?_, fun sign j inside => ?_⟩
    · have leaves : Leaves floats space setting (replaceThenExtract environment .i32x4 sign i i) rest i32Type _ :=
        replaceThenExtract_leaves stack isV scalar inside inside
      rw [List.getElem?_set_self (by rw [length]; exact inside)] at leaves
      have whole : x % 2 ^ (LaneShape.type .i32x4).laneBits = x := Nat.mod_eq_of_lt small
      rw [whole, extended_i32x4 small]
      exact leaves
    · have leaves : Leaves floats space setting (replaceThenExtract environment .i32x4 sign i j) rest i32Type _ :=
        replaceThenExtract_leaves stack isV scalar insideI insideJ
      rw [List.getElem?_set_ne different, ofBits_lane insideJ] at leaves
      exact ⟨_, leaves, extract_leaves isV insideJ⟩
    · have lane : v / 2 ^ (32 * j) % 2 ^ 32 < 2 ^ 32 := Nat.mod_lt _ (by decide)
      have leaves : Leaves floats space (setting.withStack (vec :: rest))
          (visitInstr environment (.simdLaneOp (LaneShape.extractLane .i32x4 sign) j)) rest i32Type _ :=
        extract_leaves isV inside
      have same : LaneShape.extended .i32x4 sign _ = _ := extended_i32x4 lane
      rw [← same] at leaves
      exact leaves

end Code

theorem visitInstr_laneLaws_iff_const :
    LaneLaws (.choosing true) ⟨0, 65536⟩ onePage (.start [.int 32 7, .int 128 5]) (.int 128 5) [] .i32x4 5 7 ↔
      LaneShape.i32x4 = .i32x4 := by
  have isV : IsV128 ⟨0, 65536⟩ (.start [.int 32 7, .int 128 5]) (.int 128 5) 5 := isV128_const (by decide)
  have isX : Holds ⟨0, 65536⟩ (.start [.int 32 7, .int 128 5]) (.int 32 7) i32Type (Datum.ofBits i32Type 7) :=
    (isStored_const (by decide)).holds
  have laws : LaneLaws (.choosing true) ⟨0, 65536⟩ onePage (.start [.int 32 7, .int 128 5]) (.int 128 5) [] .i32x4 5 7 ↔
      LaneShape.i32x4 = .i32x4 := visitInstr_laneLaws_iff rfl isV rfl isX (by decide)
  exact laws

/-- The code for `i8x16.replace_lane` is rejected. -/
theorem visitInstr_replace_narrow :
    ¬LaneLaws (.choosing true) ⟨0, 65536⟩ onePage (.start [.int 32 7, .int 128 5]) (.int 128 5) [] .i8x16 5 7 := by
  intro laws
  have typed := laws.typed true 0 (by decide) 0 (by decide)
  exact replaceThenExtract_rejected rfl rfl (by decide) typed

end WasmToLlvm.Instruction
