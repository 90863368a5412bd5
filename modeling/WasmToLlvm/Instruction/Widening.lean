import WasmToLlvm.Instruction.Expansion
import WasmToLlvm.Llvm.FloatLaws

/-!
# Widening and converting lanes

The instructions whose result has lanes of another width or kind. The conversions between
integers and floating-point numbers are those of LLVM, but where LLVM has no result
WebAssembly takes the nearest integer.
-/

set_option autoImplicit false

namespace WasmToLlvm.Instruction

open Llvm Wasm Block Library

/-! ## The instructions -/

/-- What an instruction computes. `lanes` and `width` are those of the operands. -/
inductive Widening where
  | extend (sign high : Bool) (lanes width : Nat)
  | extaddPairwise (sign : Bool) (lanes width : Nat)
  | extmul (sign high : Bool) (lanes width : Nat)
  | q15mulrSat
  | convert (sign : Bool)
  | convertLow (sign : Bool)
  | truncSat (sign : Bool)
  | truncSatZero (sign : Bool)
  | demoteZero
  | promoteLow
  deriving DecidableEq, Repr

def UnaryOpcode.widening? : UnaryOpcode → Option Widening
  | .i16x8ExtendLowI8x16S => some (.extend true false 16 8)
  | .i16x8ExtendHighI8x16S => some (.extend true true 16 8)
  | .i16x8ExtendLowI8x16U => some (.extend false false 16 8)
  | .i16x8ExtendHighI8x16U => some (.extend false true 16 8)
  | .i32x4ExtendLowI16x8S => some (.extend true false 8 16)
  | .i32x4ExtendHighI16x8S => some (.extend true true 8 16)
  | .i32x4ExtendLowI16x8U => some (.extend false false 8 16)
  | .i32x4ExtendHighI16x8U => some (.extend false true 8 16)
  | .i64x2ExtendLowI32x4S => some (.extend true false 4 32)
  | .i64x2ExtendHighI32x4S => some (.extend true true 4 32)
  | .i64x2ExtendLowI32x4U => some (.extend false false 4 32)
  | .i64x2ExtendHighI32x4U => some (.extend false true 4 32)
  | .i16x8ExtaddPairwiseI8x16S => some (.extaddPairwise true 16 8)
  | .i16x8ExtaddPairwiseI8x16U => some (.extaddPairwise false 16 8)
  | .i32x4ExtaddPairwiseI16x8S => some (.extaddPairwise true 8 16)
  | .i32x4ExtaddPairwiseI16x8U => some (.extaddPairwise false 8 16)
  | .f32x4ConvertI32x4S => some (.convert true)
  | .f32x4ConvertI32x4U => some (.convert false)
  | .f64x2ConvertLowI32x4S => some (.convertLow true)
  | .f64x2ConvertLowI32x4U => some (.convertLow false)
  | .i32x4TruncSatF32x4S => some (.truncSat true)
  | .i32x4TruncSatF32x4U => some (.truncSat false)
  | .i32x4TruncSatF64x2SZero => some (.truncSatZero true)
  | .i32x4TruncSatF64x2UZero => some (.truncSatZero false)
  | .f32x4DemoteF64x2Zero => some .demoteZero
  | .f64x2PromoteLowF32x4 => some .promoteLow
  | _ => none

def BinaryOpcode.widening? : BinaryOpcode → Option Widening
  | .i16x8ExtmulLowI8x16S => some (.extmul true false 16 8)
  | .i16x8ExtmulHighI8x16S => some (.extmul true true 16 8)
  | .i16x8ExtmulLowI8x16U => some (.extmul false false 16 8)
  | .i16x8ExtmulHighI8x16U => some (.extmul false true 16 8)
  | .i32x4ExtmulLowI16x8S => some (.extmul true false 8 16)
  | .i32x4ExtmulHighI16x8S => some (.extmul true true 8 16)
  | .i32x4ExtmulLowI16x8U => some (.extmul false false 8 16)
  | .i32x4ExtmulHighI16x8U => some (.extmul false true 8 16)
  | .i64x2ExtmulLowI32x4S => some (.extmul true false 4 32)
  | .i64x2ExtmulHighI32x4S => some (.extmul true true 4 32)
  | .i64x2ExtmulLowI32x4U => some (.extmul false false 4 32)
  | .i64x2ExtmulHighI32x4U => some (.extmul false true 4 32)
  | .i16x8Q15mulrSatS => some .q15mulrSat
  | _ => none

/-- The integer of a lane. -/
def laneInteger (sign : Bool) (width bits index : Nat) : Int :=
  if sign then signed width (laneAt width bits index) else laneAt width bits index

/-- The lane of the operand that a lane of the half comes from. -/
def halfStart (high : Bool) (lanes : Nat) : Nat := if high then lanes / 2 else 0

def intToFloat (sign : Bool) : CastOp := if sign then .siToFP else .uiToFP

def intExtension (sign : Bool) : CastOp := if sign then .sext else .zext

def Widening.resultType : Widening → Ty
  | .extend _ _ lanes width | .extaddPairwise _ lanes width | .extmul _ _ lanes width =>
      lanesType (lanes / 2) (2 * width)
  | .q15mulrSat => i16x8Type
  | .convert _ | .demoteZero => f32x4Type
  | .convertLow _ | .promoteLow => f64x2Type
  | .truncSat _ | .truncSatZero _ => i32x4Type

/-- The result that WebAssembly gives. -/
def Widening.eval (floats : Floats) (widening : Widening) (x y : Nat) : Datum :=
  match widening with
  | .extend sign high lanes width =>
      Datum.ofLanes (lanes / 2) fun index => wrap (2 * width) (laneInteger sign width x (halfStart high lanes + index))
  | .extaddPairwise sign lanes width =>
      Datum.ofLanes (lanes / 2) fun index =>
        wrap (2 * width) (laneInteger sign width x (2 * index) + laneInteger sign width x (2 * index + 1))
  | .extmul sign high lanes width =>
      Datum.ofLanes (lanes / 2) fun index =>
        wrap (2 * width) (laneInteger sign width x (halfStart high lanes + index) *
          laneInteger sign width y (halfStart high lanes + index))
  | .q15mulrSat =>
      Datum.ofLanes 8 fun index =>
        wrap 16 (clamp 16 ((laneInteger true 16 x index * laneInteger true 16 y index + 2 ^ 14) / 2 ^ 15))
  | .convert sign => (List.range 4).map fun index => floats.convert (intToFloat sign) 32 32 (laneAt 32 x index)
  | .convertLow sign => (List.range 2).map fun index => floats.convert (intToFloat sign) 32 64 (laneAt 32 x index)
  | .truncSat sign => Datum.ofLanes 4 fun index => truncateSaturating sign 32 32 (laneAt 32 x index)
  | .truncSatZero sign =>
      Datum.ofLanes 4 fun index => if index < 2 then truncateSaturating sign 64 32 (laneAt 64 x index) else 0
  | .demoteZero =>
      (List.range 4).map fun index => if index < 2 then floats.convert .fpTrunc 64 32 (laneAt 64 x index) else some 0
  | .promoteLow => (List.range 2).map fun index => floats.convert .fpExt 32 64 (laneAt 32 x index)

/-- The case in which the code of an opcode ends, where its own has no `break`. -/
def UnaryOpcode.runsInto? : UnaryOpcode → Option UnaryOpcode
  | .i16x8ExtaddPairwiseI8x16U => some .i32x4ExtaddPairwiseI16x8S
  | .f32x4ConvertI32x4S | .f32x4ConvertI32x4U => some .f64x2ConvertLowI32x4S
  | _ => none

/-! ## Lanes of any kind -/

section Sequences

variable {floats : Floats} {space : Space} {setting : Setting}
  {p1 p2 value left right : Value} {x y lanes width startIdx : Nat} {type type' : Ty} {lane lane' : Nat → Nat}
  {datum : Datum} {sign : Bool} {next : Value → Emit Value}

/-- A cast whose lanes may be poison. -/
theorem createOp_cast_yields {kind : CastOp} (isValue : Holds space setting value type (Datum.ofLanes type.lanes lane))
    (lanewise : kind ≠ .bitCast) :
    Yields floats space setting (createOp (.cast kind) type' [value]) type'
      ((List.range type.lanes).map fun index => kind.lane floats type.laneBits type'.laneBits (lane index)) := by
  have computes : Computes floats space setting (createOp (.cast kind) type' [value]) type' _ :=
    createOp_cast_computes isValue
  rw [CastOp.datum_ofLanes lanewise] at computes
  exact computes.yields (createOp_quiet ..)

theorem createCast_yields {kind : CastOp} (isValue : Holds space setting value type (Datum.ofLanes type.lanes lane))
    (lanewise : kind ≠ .bitCast) (different : type ≠ type') :
    Yields floats space setting (createCast kind value type') type'
      ((List.range type.lanes).map fun index => kind.lane floats type.laneBits type'.laneBits (lane index)) := by
  unfold createCast
  rw [isValue.type, if_neg different]
  exact createOp_cast_yields isValue lanewise

theorem holds_undef : Holds space setting (.undef type) type (List.replicate type.lanes none) :=
  .constant rfl rfl fun _ _ isInst => by cases isInst

/-- The two low lanes replace those of another vector. -/
theorem insertLowLanes_yields {element : Ty} {first second : Lane} {more : Datum}
    (isInto : Holds space setting left type datum) (two : 1 < datum.length)
    (isFrom : Holds space setting right (.vector lanes element) (first :: second :: more)) :
    Yields floats space setting (insertLowLanes left right) type ((datum.set 0 first).set 1 second) := by
  unfold insertLowLanes
  have lowest : Computes floats space setting (createExtractElement right 0) element (some [first]) :=
    createExtractElement_computes isFrom (by decide)
  refine (lowest.yields (createExtractElement_quiet ..)).bind fun later isFirst => ?_
  have isFrom := isFrom.later later
  have inserted : Computes floats space _ (createInsertElement left _ 0) type _ :=
    createInsertElement_computes (isInto.later later) isFirst (Nat.lt_of_succ_lt two) (by decide)
  refine (inserted.yields (createInsertElement_quiet ..)).bind fun later isInto => ?_
  have next : Computes floats space _ (createExtractElement right 1) element (some [second]) :=
    createExtractElement_computes (isFrom.later later) (by decide)
  refine (next.yields (createExtractElement_quiet ..)).bind fun later isSecond => ?_
  have inserted : Computes floats space _ (createInsertElement _ _ 1) type _ :=
    createInsertElement_computes (isInto.later later) isSecond (by rwa [List.length_set]) (by decide)
  exact inserted.yields (createInsertElement_quiet ..)

/-! ## Pairwise sums -/

theorem extended_lane (sign : Bool) {x : Nat} (small : x < 2 ^ width) :
    (intExtension sign).lane floats width (2 * width) x =
      some (wrap (2 * width) (if sign then signed width x else x)) := by
  cases sign with
  | true => exact congrArg some (toNat_signExtend_ofNat small (by omega))
  | false =>
      have wide : x < 2 ^ (2 * width) := Nat.lt_of_lt_of_le small (Nat.pow_le_pow_right (by decide) (by omega))
      rw [if_neg Bool.false_ne_true, wrap_natCast, Nat.mod_eq_of_lt wide]
      rfl

theorem createExtension_gives {sign : Bool} (isValue : HasLanes space setting value (lanesType lanes width) lane)
    (positive : 0 < width) :
    GivesLanes floats space setting (createCast (intExtension sign) value (lanesType lanes (2 * width)))
      (lanesType lanes (2 * width))
      fun index => wrap (2 * width) (if sign then signed width (lane index) else lane index) := by
  refine createCast_gives isValue ?_ rfl (by cases sign <;> simp [intExtension])
    (fun index inside => extended_lane sign (isValue.small index inside)) fun _ _ => wrap_lt
  intro same
  injection same with _ sameElement
  have sameWidth := Ty.int.inj sameElement
  omega

theorem createExtaddPairwise_gives {sign : Bool} (isX : IsV128 space setting p1 x) (positive : 0 < width) :
    GivesLanes floats space setting
      (createExtaddPairwise (intExtension sign) p1 (lanesType lanes width) (lanesType (lanes / 2) (2 * width)))
      (lanesType (lanes / 2) (2 * width))
      fun index => wrap (2 * width) (laneInteger sign width x (2 * index) + laneInteger sign width x (2 * index + 1)) := by
  unfold createExtaddPairwise
  refine (bitCast_gives isX _).andThen fun later isVec => ?_
  refine (createShuffleVector_gives isVec holds_undef fun index inside => ?_).andThen fun later isEven => ?_
  · have inside : index < lanes / 2 := inside
    omega
  refine (createShuffleVector_gives (isVec.later later) holds_undef fun index inside => ?_).andThen fun later isOdd => ?_
  · have inside : index < lanes / 2 := inside
    omega
  refine (createExtension_gives (isEven.later later) positive).andThen fun later isEven => ?_
  refine (createExtension_gives (isOdd.later later) positive).andThen fun later isOdd => ?_
  refine (createAdd_gives (isEven.later later) isOdd).congr fun index inside => ?_
  exact wrap_add_wrap

/-! ## Halves and their products -/

theorem lane_int_mul {x y : Nat} (smallX : x < 2 ^ width) (smallY : y < 2 ^ width) :
    BinaryOperator.lane floats .mul (lanesType lanes width) (some x) (some y) = some (some (x * y % 2 ^ width)) := by
  rw [lane_int rfl]
  exact congrArg (fun product => some (some product)) (toNat_mul_ofNat smallX smallY)

theorem createMul_gives (isLeft : HasLanes space setting left (lanesType lanes width) lane)
    (isRight : HasLanes space setting right (lanesType lanes width) lane') :
    GivesLanes floats space setting (createBinary .mul left right) (lanesType lanes width)
      fun index => lane index * lane' index % 2 ^ width :=
  createBinary_gives isLeft isRight
    (fun index inside => lane_int_mul (isLeft.small index inside) (isRight.small index inside))
    fun _ _ => Nat.mod_lt _ (Nat.two_pow_pos width)

theorem extendMask_low : extendMask 0 lanes = (List.range lanes).map fun index => some index := by
  simp [extendMask]

/-- The half of the mask that is read before it is assigned. -/
theorem extendMask_high (some_ : 0 < lanes) (high : 0 < startIdx) : none ∈ extendMask startIdx lanes :=
  List.mem_map.mpr ⟨0, List.mem_range.mpr some_, if_neg (Nat.not_le.mpr high)⟩

theorem createSIMDExtend_eq {vectorType destType : Ty} : createSIMDExtend value vectorType destType startIdx sign =
    createCast .bitCast value vectorType >>= fun vector =>
      createShuffleVector vector (.undef (.vector (vectorType.lanes / 2) vectorType.scalar))
        (extendMask startIdx (vectorType.lanes / 2)) >>= fun halfVector =>
          createCast (intExtension sign) halfVector destType := by
  cases sign <;> rfl

/-- The lanes of the low half, extended. -/
theorem createSIMDExtend_gives (isX : IsV128 space setting value x) (positive : 0 < width) :
    GivesLanes floats space setting
      (createSIMDExtend value (lanesType lanes width) (lanesType (lanes / 2) (2 * width)) 0 sign)
      (lanesType (lanes / 2) (2 * width)) fun index => wrap (2 * width) (laneInteger sign width x index) := by
  rw [createSIMDExtend_eq, extendMask_low]
  refine (bitCast_gives isX _).andThen fun later isVector => ?_
  refine (createShuffleVector_gives isVector holds_undef fun index inside => ?_).andThen fun later isHalf => ?_
  · have inside : index < lanes / 2 := inside
    omega
  exact createExtension_gives isHalf positive

theorem createExtmul_gives (isX : IsV128 space setting p2 x) (isY : IsV128 space setting p1 y) (positive : 0 < width) :
    GivesLanes floats space setting
      (createExtmul p1 p2 (lanesType lanes width) (lanesType (lanes / 2) (2 * width)) 0 sign)
      (lanesType (lanes / 2) (2 * width)) fun index =>
        wrap (2 * width) (laneInteger sign width x index * laneInteger sign width y index) := by
  unfold createExtmul
  refine (createSIMDExtend_gives isX positive).andThen fun later isLeft => ?_
  refine (createSIMDExtend_gives (isY.later later) positive).andThen fun later isRight => ?_
  refine (createMul_gives (isLeft.later later) isRight).congr fun index inside => ?_
  exact wrap_mul_wrap

/-! ## Conversions -/

theorem createLowLanes_yields (isX : IsV128 space setting p1 x) :
    Yields floats space setting (createLowLanes p1) i32x2Type (Datum.ofLanes 2 (laneAt 32 x)) := by
  unfold createLowLanes
  refine (bitCast_gives isX i32x4Type).yields.bind fun later isVec => ?_
  exact insertLowLanes_yields hasLanes_null.holds (by decide) isVec

theorem createConvertLow_yields {sign : Bool} (isX : IsV128 space setting p1 x)
    (code : ∀ ret : Value, ret.type = i32x2Type → next ret = createOp (.cast (intToFloat sign)) f64x2Type [ret]) :
    Yields floats space setting (createLowLanes p1 >>= next) f64x2Type
      (Widening.eval floats (.convertLow sign) x y) := by
  refine (createLowLanes_yields isX).bind fun later isLow => ?_
  rw [code _ isLow.type]
  have cast : Yields floats space _ (createOp (.cast (intToFloat sign)) f64x2Type [_]) f64x2Type _ :=
    createOp_cast_yields isLow (by cases sign <;> simp [intToFloat])
  cases sign with
  | true => exact cast
  | false => exact cast

theorem createDemote_yields (isX : IsV128 space setting p1 x) :
    Yields floats space setting (unaryCode .f32x4DemoteF64x2Zero p1) f32x4Type (Widening.eval floats .demoteZero x y) := by
  unfold unaryCode
  refine (bitCast_gives isX f64x2Type).yields.bind fun later isVec => ?_
  refine (createCast_yields isVec (by simp) (by simp)).bind fun later isNarrow => ?_
  exact insertLowLanes_yields hasLanes_null.holds (by decide) isNarrow

theorem createPromote_yields (isX : IsV128 space setting p1 x) :
    Yields floats space setting (unaryCode .f64x2PromoteLowF32x4 p1) f64x2Type (Widening.eval floats .promoteLow x y) := by
  unfold unaryCode
  refine (bitCast_gives isX f32x4Type).bind fun later isVec => ?_
  have mask : [some 0, some 1] = (List.range 2).map fun index => some index := rfl
  rw [mask]
  refine (createShuffleVector_gives isVec holds_undef fun index inside => Nat.lt_trans inside (by decide)).bind
    fun later isLow => ?_
  exact createCast_yields isLow.holds (by simp) (by simp)

theorem createTruncSat_yields {sign : Bool} (isX : IsV128 space setting p1 x) :
    Yields floats space setting
      (createCast .bitCast p1 f32x4Type >>= fun ret => createCast (floatToInt sign) ret i32x4Type) i32x4Type
      ((List.range 4).map fun index => floats.convert (floatToInt sign) 32 32 (laneAt 32 x index)) := by
  refine (bitCast_gives isX f32x4Type).yields.bind fun later isVec => ?_
  have cast : Yields floats space _ (createCast (floatToInt sign) _ i32x4Type) i32x4Type _ :=
    createCast_yields isVec (by cases sign <;> simp [floatToInt]) (by simp)
  cases sign with
  | true => exact cast
  | false => exact cast

/-! ## Types -/

theorem intExtension_accepts (sign : Bool) (wider : width < 2 * width) :
    CastOp.accepts (intExtension sign) (lanesType lanes width) (lanesType lanes (2 * width)) = true := by
  cases sign with
  | true => exact zext_accepts lanesType_sameShape rfl rfl wider
  | false => exact zext_accepts lanesType_sameShape rfl rfl wider

theorem createExtension_types (sign : Bool) (isValue : value.type = lanesType lanes width) (positive : 0 < width) :
    Types (createCast (intExtension sign) value (lanesType lanes (2 * width))) (lanesType lanes (2 * width)) True :=
  createResize_types isValue (intExtension_accepts sign (by omega)) (by omega)

theorem createExtaddPairwise_types (sign : Bool) (isX : IsV128 space setting p1 x) (size : lanes * width = 128)
    (positive : 0 < width) :
    Types (createExtaddPairwise (intExtension sign) p1 (lanesType lanes width) (lanesType (lanes / 2) (2 * width)))
      (lanesType (lanes / 2) (2 * width)) True := by
  have half : ∀ source : Nat → Nat, ((List.range (lanes / 2)).map fun index => some (source index)).length = lanes / 2 := by
    intro source
    rw [List.length_map, List.length_range]
  unfold createExtaddPairwise
  refine (isX.bitCast_types size).andThen fun vec isVec => ?_
  have even := createShuffleVector_types ((List.range (lanes / 2)).map fun i => some (2 * i)) isVec
    (show (Value.undef (lanesType lanes width)).type = lanesType lanes width from rfl)
  have odd := createShuffleVector_types ((List.range (lanes / 2)).map fun i => some (2 * i + 1)) isVec
    (show (Value.undef (lanesType lanes width)).type = lanesType lanes width from rfl)
  rw [half] at even odd
  refine even.andThen fun vec1 isVec1 => odd.andThen fun vec2 isVec2 => ?_
  refine (createExtension_types sign isVec1 positive).andThen fun vec1 isVec1 => ?_
  refine (createExtension_types sign isVec2 positive).andThen fun vec2 isVec2 => ?_
  exact createInt_types .add rfl isVec1 isVec2

theorem insertLowLanes_types {count : Nat} {element : Ty} (isInto : left.type = .vector count element)
    (isFrom : right.type = .vector lanes element) :
    Types (insertLowLanes left right) (.vector count element) True := by
  have inserts : ∀ {into lane : Value} {index : Nat}, into.type = .vector count element → lane.type = element →
      Types (createInsertElement into lane index) (.vector count element) True := fun isInto isLane =>
    (createInsertElement_types isInto isLane).congr (iff_of_true ⟨rfl, rfl⟩ trivial)
  unfold insertLowLanes
  refine (createExtractElement_types isFrom).andThen fun first isFirst => ?_
  refine (inserts isInto isFirst).andThen fun into isInto => ?_
  refine (createExtractElement_types isFrom).andThen fun second isSecond => ?_
  exact inserts isInto isSecond

theorem createLowLanes_types (isX : IsV128 space setting p1 x) : Types (createLowLanes p1) i32x2Type True := by
  unfold createLowLanes
  have cast : Types (createCast .bitCast p1 i32x4Type) i32x4Type True := isX.bitCast_types rfl
  exact cast.andThen fun vec isVec => insertLowLanes_types rfl isVec

theorem createUIToFP_types (isValue : value.type = type) :
    Types (createUIToFP value type') type' (CastOp.accepts .uiToFP type type' = true) := by
  unfold createUIToFP createOp
  refine (create_types (.op (.cast .uiToFP) type' [value])).congr ?_
  simp [Plain.wellTyped, Operation.wellTyped, isValue]

/-- A bitcast to lanes of floating-point numbers. -/
theorem IsV128.bitCast_float_types (isX : IsV128 space setting p1 x) (size : type.size = 128)
    (float : type.scalar.isFloat = true) : Types (createCast .bitCast p1 type) type True :=
  Instruction.bitCast_types (isX.size.trans size.symm) isX.scalar (Or.inr float)

end Sequences

end WasmToLlvm.Instruction
