import WasmToLlvm.Instruction.Folding
import WasmToLlvm.Instruction.Widening
import WasmToLlvm.Llvm.FloatLaws

/-!
# Visits that widen lanes

Some of the code of the instructions that widen lanes is of no type. It is accepted only where
LLVM folds the operation on constants.
-/

set_option autoImplicit false

namespace WasmToLlvm.Instruction

open Llvm Wasm Block Library

section Sequences

variable {floats : Floats} {space : Space} {folder : Folder} {setting : Setting} {start before after : Straight Operation}
  {p1 p2 value result left right : Value} {x y lanes width startIdx : Nat} {type type' : Ty} {sign : Bool}

/-! ## Folding -/

theorem createExtaddPairwise_monotone {kind : CastOp} : Monotone (createExtaddPairwise kind p1 type type') := by
  unfold createExtaddPairwise
  repeat' first | apply monotone_bind | intro _
  all_goals first | exact createBinary_monotone rfl | simp

theorem insertLowLanes_monotone : Monotone (insertLowLanes left right) := by
  unfold insertLowLanes
  repeat' first | apply monotone_bind | intro _
  all_goals simp

theorem createLowLanes_monotone : Monotone (createLowLanes p1) :=
  monotone_bind createCast_monotone fun _ => insertLowLanes_monotone

/-- The halves keep their lanes under folding. -/
theorem createSIMDExtend_keeps (isX : IsV128 space setting value x) (size : lanes * width = 128) (positive : 0 < width) :
    Asks Keeps (createSIMDExtend value (lanesType lanes width) (lanesType (lanes / 2) (2 * width)) 0 sign)
      fun result => result.type = lanesType (lanes / 2) (2 * width) := by
  rw [createSIMDExtend_eq]
  refine ((isX.bitCast_types size).keeps createCast_monotone).bind fun vector isVector => ?_
  have shuffled : Asks Keeps (createShuffleVector vector (.undef (.vector (lanes / 2) (.int width)))
      (extendMask 0 (lanes / 2))) fun half => half.type = lanesType (lanes / 2) width := by
    have fewer : (Value.undef (.vector (lanes / 2) (.int width))).type.lanes ≤ vector.type.lanes := by
      rw [isVector]
      exact Nat.div_le_self lanes 2
    have asks : Asks Keeps (Visit.create (.op (.shuffleVector (extendMask 0 (lanes / 2)))
        (.vector (extendMask 0 (lanes / 2)).length vector.type.scalar)
        [vector, .undef (.vector (lanes / 2) (.int width))])) _ := .create ⟨rfl, .inr (.inl ⟨_, _, _, _, rfl, fewer⟩)⟩
    rw [Plain.type, isVector, extendMask_low, List.length_map, List.length_range] at asks
    rw [createShuffleVector, createOp, isVector, extendMask_low, List.length_map, List.length_range]
    exact asks
  refine shuffled.bind fun half isHalf => ?_
  exact (createExtension_types sign isHalf positive).keeps createCast_monotone

theorem createExtmul_keeps (isX : IsV128 space setting p2 x) (isY : IsV128 space setting p1 y)
    (size : lanes * width = 128) (positive : 0 < width) :
    Asks Keeps (createExtmul p1 p2 (lanesType lanes width) (lanesType (lanes / 2) (2 * width)) 0 sign)
      fun result => result.type = lanesType (lanes / 2) (2 * width) := by
  unfold createExtmul
  refine (createSIMDExtend_keeps isX size positive).bind fun left isLeft => ?_
  refine (createSIMDExtend_keeps isY size positive).bind fun right isRight => ?_
  exact (createInt_types .mul rfl isLeft isRight).keeps (createBinary_monotone rfl)

theorem createSIMDExtend_type {vectorType destType : Ty}
    (ran : createSIMDExtend value vectorType destType startIdx sign before = .ok (result, after)) :
    result.type = destType := by
  rw [createSIMDExtend_eq] at ran
  obtain ⟨vector, first, ranVector, ran⟩ := bind_ok.mp ran
  obtain ⟨half, second, ranHalf, ranResult⟩ := bind_ok.mp ran
  exact ((createCast_emits ..).run ranResult).2

/-- The shuffle of the half is folded, or no instruction could make it. -/
theorem createSIMDExtend_accepted_iff (lawful : folder.Lawful floats space) (reaches : Reaches start before)
    (older : value.OlderThan (start.next + start.code.length)) (isX : IsV128 space setting value x)
    (size : lanes * width = 128) (positive : 0 < width)
    (ran : createSIMDExtend value (lanesType lanes width) (lanesType (lanes / 2) (2 * width)) startIdx sign before =
      .ok (result, after)) :
    FoldsAccepted folder start after ↔ FoldsAccepted folder start before ∧ value.isConstant = true ∧
      none ∉ extendMask startIdx (lanes / 2) := by
  rw [createSIMDExtend_eq] at ran
  obtain ⟨vector, first, ranVector, ran⟩ := bind_ok.mp ran
  obtain ⟨half, second, ranHalf, ranResult⟩ := bind_ok.mp ran
  have ranHalf : Visit.create (.op (.shuffleVector (extendMask startIdx (lanes / 2)))
      (.vector (extendMask startIdx (lanes / 2)).length vector.type.scalar)
      [vector, .undef (lanesType (lanes / 2) width)]) first = .ok (half, second) := ranHalf
  have accepts : value.type = lanesType lanes width ∨ CastOp.accepts .bitCast value.type (lanesType lanes width) = true :=
    isX.accepts size (.inl rfl)
  have constant := bitCast_constant_iff lawful reaches older accepts ranVector
  have vectorTypes : Types (createCast .bitCast value (lanesType lanes width)) (lanesType lanes width) True :=
    isX.bitCast_types size
  have isVector := (vectorTypes.emits.run ranVector).2
  have toFirst := reaches.trans (vectorTypes.emits.quiet.appends.reaches ranVector)
  have toHalf := toFirst.trans ((create_emits _).quiet.appends.reaches ranHalf)
  have isHalf : half.type = lanesType (lanes / 2) width := by
    rw [((create_emits _).run ranHalf).2, Plain.type, isVector, extendMask, List.length_map, List.length_range]
    rfl
  have resultTypes : Types (createCast (intExtension sign) half (lanesType (lanes / 2) (2 * width))) _ True :=
    createExtension_types sign isHalf positive
  have isFolded : (foldedValue folder start first vector).type = lanesType lanes width := foldedValue_type.trans isVector
  have illTyped : Plain.wellTyped (.op (.shuffleVector (extendMask startIdx (lanes / 2)))
      (.vector (extendMask startIdx (lanes / 2)).length vector.type.scalar)
      [vector, .undef (lanesType (lanes / 2) width)]) = false := by
    have different : lanes ≠ lanes / 2 := by
      intro same
      have none_ : lanes = 0 := by omega
      rw [none_, Nat.zero_mul] at size
      cases size
    have isUndef : (Value.undef (lanesType (lanes / 2) width)).type = lanesType (lanes / 2) width := rfl
    simp [Plain.wellTyped, Operation.wellTyped, isVector, isUndef, different]
  rw [resultTypes.accepted_iff toHalf ranResult, create_accepted_iff toFirst ranHalf, illTyped,
    vectorTypes.accepted_iff reaches ranVector, ← constant]
  refine and_congr_right fun _ => ⟨fun folds => ?_, fun both => .inl ?_⟩
  · have folds := folds.resolve_right Bool.false_ne_true
    obtain ⟨made, folds⟩ := Option.ne_none_iff_exists'.mp folds
    exact ⟨lawful.constants folds _ List.mem_cons_self, lawful.assigned folds⟩
  · have undef : (Value.undef (lanesType (lanes / 2) width)).isConstant = true := rfl
    have shuffles := lawful.shuffle both.1 undef (by rw [isFolded]; rfl) rfl both.2
    rw [isFolded] at shuffles
    rw [isVector]
    exact shuffles

theorem createExtmul_accepted_iff (lawful : folder.Lawful floats space) (reaches : Reaches start before)
    (older1 : p1.OlderThan (start.next + start.code.length)) (older2 : p2.OlderThan (start.next + start.code.length))
    (isX : IsV128 space setting p2 x) (isY : IsV128 space setting p1 y) (size : lanes * width = 128) (positive : 0 < width)
    (ran : createExtmul p1 p2 (lanesType lanes width) (lanesType (lanes / 2) (2 * width)) startIdx sign before =
      .ok (result, after)) :
    FoldsAccepted folder start after ↔ FoldsAccepted folder start before ∧
      (p1.isConstant = true ∧ p2.isConstant = true) ∧ none ∉ extendMask startIdx (lanes / 2) := by
  obtain ⟨left, first, ranLeft, ran⟩ := bind_ok.mp ran
  obtain ⟨right, second, ranRight, ranProduct⟩ := bind_ok.mp ran
  have toFirst := reaches.trans ((createSIMDExtend_quiet ..).appends.reaches ranLeft)
  have toSecond := toFirst.trans ((createSIMDExtend_quiet ..).appends.reaches ranRight)
  have isLeft := createSIMDExtend_type ranLeft
  have isRight := createSIMDExtend_type ranRight
  have types : Types (createBinary .mul left right) _ True := createInt_types .mul rfl isLeft isRight
  rw [types.accepted_iff toSecond ranProduct, createSIMDExtend_accepted_iff lawful toFirst older1 isY size positive ranRight,
    createSIMDExtend_accepted_iff lawful reaches older2 isX size positive ranLeft]
  tauto

/-- A cast of another value than a constant is an instruction. -/
theorem createCast_constant {kind : CastOp} (lawful : folder.Lawful floats space) (reaches : Reaches start before)
    (different : value.type ≠ type) (ran : createCast kind value type before = .ok (result, after))
    (constant : (foldedValue folder start after result).isConstant = true) :
    (foldedValue folder start before value).isConstant = true := by
  unfold createCast at ran
  rw [if_neg different] at ran
  obtain ⟨made, folds⟩ := Option.ne_none_iff_exists'.mp ((create_constant_iff reaches ran).mp constant)
  exact lawful.constants folds _ List.mem_cons_self

/-- The sum, whose summands have lanes of 64 and of 32 bits, has to be folded. -/
theorem createQ15mulrSat_constant (lawful : folder.Lawful floats space) (reaches : Reaches start before)
    (older1 : p1.OlderThan (start.next + start.code.length)) (older2 : p2.OlderThan (start.next + start.code.length))
    (isX : IsV128 space setting p2 x) (isY : IsV128 space setting p1 y)
    (ran : createQ15mulrSat p1 p2 before = .ok (result, after)) (accepted : FoldsAccepted folder start after) :
    p1.isConstant = true ∧ p2.isConstant = true := by
  obtain ⟨left, first, ranLeft, ran⟩ := bind_ok.mp ran
  obtain ⟨right, second, ranRight, ran⟩ := bind_ok.mp ran
  obtain ⟨wideLeft, third, ranWideLeft, ran⟩ := bind_ok.mp ran
  obtain ⟨wideRight, fourth, ranWideRight, ran⟩ := bind_ok.mp ran
  obtain ⟨product, fifth, ranProduct, ran⟩ := bind_ok.mp ran
  obtain ⟨sum, sixth, ranSum, ran⟩ := bind_ok.mp ran
  have cast : ∀ {kind : CastOp} {value result : Value} {type : Ty} {before after : Straight Operation},
      createCast kind value type before = .ok (result, after) → result.type = type ∧ Reaches before after :=
    fun ran => ⟨((createCast_emits ..).run ran).2, (createCast_quiet ..).appends.reaches ran⟩
  have toFirst := reaches.trans (cast ranLeft).2
  have toSecond := toFirst.trans (cast ranRight).2
  have toThird := toSecond.trans (cast ranWideLeft).2
  have toFourth := toThird.trans (cast ranWideRight).2
  have toFifth := toFourth.trans ((createBinary_quiet ..).appends.reaches ranProduct)
  have toSixth := toFifth.trans ((createBinary_quiet ..).appends.reaches ranSum)
  have rest : Reaches sixth after := by
    refine Appends.reaches ?_ ran
    suffices quiet : Quiet _ from quiet.appends
    repeat' first | apply quiet_bind | intro _
    all_goals simp
  have isProduct : product.type = i64x8Type := ((create_emits _).run ranProduct).2.trans (cast ranWideLeft).1
  have illTyped : Plain.wellTyped (.op (.binary .add) product.type [product, .splat 8 32 0x4000]) = false := by
    have isSplat : (Value.splat 8 32 0x4000).type = i32x8Type := rfl
    simp [Plain.wellTyped, Operation.wellTyped, isProduct, isSplat]
  have sums := ((create_accepted_iff toFifth ranSum).mp (accepted.earlier toSixth rest)).2
  rw [illTyped] at sums
  obtain ⟨made, folds⟩ := Option.ne_none_iff_exists'.mp (sums.resolve_right Bool.false_ne_true)
  have constant := lawful.constants folds _ List.mem_cons_self
  obtain ⟨made, folds⟩ := Option.ne_none_iff_exists'.mp ((create_constant_iff toFourth ranProduct).mp constant)
  have constantLeft := lawful.constants folds _ List.mem_cons_self
  have constantRight := lawful.constants folds _ (List.mem_cons_of_mem _ List.mem_cons_self)
  -- back through the casts, where a value stays what it has become
  have olderLeft : left.OlderThan (first.next + first.code.length) :=
    createCast_older (older2.mono reaches.nextId_le) ranLeft
  have olderRight : right.OlderThan (second.next + second.code.length) :=
    createCast_older (older1.mono toFirst.nextId_le) ranRight
  have olderWide : wideLeft.OlderThan (third.next + third.code.length) :=
    createCast_older (olderLeft.mono (cast ranRight).2.nextId_le) ranWideLeft
  have narrow : i16x8Type ≠ i64x8Type := by decide
  constructor
  · have constant := createCast_constant lawful toThird ((cast ranRight).1 ▸ narrow) ranWideRight constantRight
    rw [foldedValue_later toSecond (cast ranWideLeft).2 olderRight] at constant
    exact (bitCast_constant_iff lawful toFirst older1 (isY.accepts rfl (.inl rfl)) ranRight).mp constant
  · rw [foldedValue_later toThird (cast ranWideRight).2 olderWide] at constantLeft
    have constant := createCast_constant lawful toSecond ((cast ranLeft).1 ▸ narrow) ranWideLeft constantLeft
    rw [foldedValue_later toFirst (cast ranRight).2 olderLeft] at constant
    exact (bitCast_constant_iff lawful reaches older2 (isX.accepts rfl (.inl rfl)) ranLeft).mp constant

end Sequences

/-! ## Every instruction -/

def Instr.widening? : Instr → Option Widening
  | .unary opcode => opcode.widening?
  | .binary opcode => opcode.widening?
  | _ => none

def Instr.runsInto? : Instr → Option UnaryOpcode
  | .unary opcode => opcode.runsInto?
  | _ => none

def Widening.isBinary : Widening → Bool
  | .extmul _ _ _ _ | .q15mulrSat => true
  | _ => false

/-- The operands on the stack, the last one on top. -/
def Widening.operands (space : Space) (setting : Setting) (widening : Widening) (values : List Value) (x y : Nat) : Prop :=
  if widening.isBinary then ∃ p1 p2, values = [p1, p2] ∧ IsV128 space setting p2 x ∧ IsV128 space setting p1 y
  else ∃ p1, values = [p1] ∧ IsV128 space setting p1 x

/-- The instructions whose code is right, and the operands it is right for. -/
def Widening.meets (widening : Widening) (operands : List Value) (x : Nat) : Prop :=
  match widening with
  | .extend _ high _ _ | .extmul _ high _ _ => high = false ∧ ∀ value ∈ operands, value.isConstant = true
  | .extaddPairwise sign lanes _ => sign = true ∨ lanes = 8
  | .convertLow _ | .demoteZero | .promoteLow => True
  | .truncSat sign => ∀ index < 4, truncated? sign 32 32 (laneAt 32 x index) ≠ none
  | .q15mulrSat | .convert _ | .truncSatZero _ => False

/-- The verifier accepts the code, which ends in its own case, and the result is that of WebAssembly. -/
def Correct (floats : Floats) (space : Space) (setting : Setting) (instr : Instr) (visit : Emit Unit)
    (rest : List Value) (type : Ty) (datum : Datum) : Prop :=
  instr.runsInto? = none ∧ WellTyped visit setting.straight ∧ Leaves floats space setting visit rest type (some datum)

section Instructions

variable {floats : Floats} {space : Space} {folder : Folder} {setting : Setting} {p1 p2 : Value} {rest : List Value}
  {x y : Nat} {widening : Widening} {unary : UnaryOpcode} {binary : BinaryOpcode}

theorem visitUnaryInst_pushes {start : Straight Operation} (top : start.stack = p1 :: rest) :
    Pushes (visitUnaryInst unary) start (unaryCode unary p1) rest := by
  rw [Pushes, visitUnaryInst, popStack_run top]

theorem visitBinaryInst_pushes {start : Straight Operation} {code : Emit Value} (top : start.stack = p1 :: p2 :: rest)
    (emitted : binaryCode binary p1 p2 = some <$> code) : Pushes (visitBinaryInst binary) start code rest := by
  rw [Pushes, visitBinaryInst, popStack_run top, popStack_run rfl, emitted, some_bind_pushResult]

/-- The part of a run that the operands come from. -/
theorem reaches_withStack : Reaches setting.straight (setting.withStack rest).straight :=
  ⟨rfl, List.prefix_refl _⟩

/-- Code that is accepted without folding. -/
theorem visitUnaryInst_correct {type : Ty} {datum : Datum} (lawful : folder.Lawful floats space)
    (own : unary.runsInto? = none) (top : setting.straight.stack = p1 :: rest) (older : setting.Older rest)
    (types : Types (unaryCode unary p1) type True) (monotone : Monotone (unaryCode unary p1))
    (yields : Yields floats space (setting.withStack rest) (unaryCode unary p1) type datum)
    (defined : ∀ lane ∈ datum, lane ≠ none) :
    Correct floats space setting (.unary unary) (foldConstants folder (visitUnaryInst unary)) rest type datum := by
  have pushes := @visitUnaryInst_pushes p1 rest unary setting.straight top
  refine ⟨own, (pushes.wellTyped_iff (unaryCode_quiet ..)).mpr ?_,
    pushes.leaves_folded lawful (types.keeps monotone) yields.computes defined older⟩
  obtain ⟨value, after, ran, _⟩ := types.runs (setting.withStack rest).straight
  exact ⟨value, after, ran, (types.accepted_iff reaches_withStack ran).mpr (.none rfl)⟩

/-! ## Halves -/

theorem UnaryOpcode.extend_code {sign high : Bool} {lanes width : Nat}
    (is : unary.widening? = some (.extend sign high lanes width)) : lanes * width = 128 ∧ 0 < width ∧ 0 < lanes / 2 ∧
      unary.runsInto? = none ∧ unaryCode unary p1 = createSIMDExtend p1 (lanesType lanes width)
        (lanesType (lanes / 2) (2 * width)) (halfStart high lanes) sign := by
  cases unary <;> cases is <;> exact ⟨rfl, by decide, by decide, rfl, rfl⟩

theorem BinaryOpcode.extmul_code {sign high : Bool} {lanes width : Nat}
    (is : binary.widening? = some (.extmul sign high lanes width)) : lanes * width = 128 ∧ 0 < width ∧ 0 < lanes / 2 ∧
      binaryCode binary p1 p2 = some <$> createExtmul p1 p2 (lanesType lanes width)
        (lanesType (lanes / 2) (2 * width)) (halfStart high lanes) sign := by
  cases binary <;> cases is <;> exact ⟨rfl, by decide, by decide, rfl⟩

theorem mask_assigned_iff {high : Bool} {lanes : Nat} (some_ : 0 < lanes / 2) :
    none ∉ extendMask (halfStart high lanes) (lanes / 2) ↔ high = false := by
  cases high with
  | true => exact iff_of_false (fun assigned => assigned (extendMask_high some_ some_)) Bool.noConfusion
  | false =>
      refine iff_of_true ?_ rfl
      rw [halfStart, if_neg Bool.false_ne_true, extendMask_low]
      simp

theorem visitUnaryInst_extend {sign high : Bool} {lanes width : Nat} (lawful : folder.Lawful floats space)
    (is : unary.widening? = some (.extend sign high lanes width)) (top : setting.straight.stack = p1 :: rest)
    (older : setting.Older rest) (isX : IsV128 space setting p1 x) :
    Correct floats space setting (.unary unary) (foldConstants folder (visitUnaryInst unary)) rest
      (lanesType (lanes / 2) (2 * width)) (Widening.eval floats (.extend sign high lanes width) x y) ↔
        Widening.meets (.extend sign high lanes width) [p1] x := by
  obtain ⟨size, positive, some_, own, code⟩ := @UnaryOpcode.extend_code p1 unary sign high lanes width is
  have pushes := @visitUnaryInst_pushes p1 rest unary setting.straight top
  rw [code] at pushes
  have quiet : Quiet (createSIMDExtend p1 (lanesType lanes width) (lanesType (lanes / 2) (2 * width))
      (halfStart high lanes) sign) := createSIMDExtend_quiet ..
  have accepted : ∀ {value after}, createSIMDExtend p1 (lanesType lanes width) (lanesType (lanes / 2) (2 * width))
      (halfStart high lanes) sign (setting.withStack rest).straight = .ok (value, after) →
        (FoldsAccepted folder setting.straight after ↔ Widening.meets (.extend sign high lanes width) [p1] x) := by
    intro value after ran
    have none_ : FoldsAccepted folder setting.straight (setting.withStack rest).straight := .none rfl
    rw [createSIMDExtend_accepted_iff lawful reaches_withStack isX.holds.older isX size positive ran,
      mask_assigned_iff some_, Widening.meets, List.forall_mem_singleton, and_iff_right none_, and_comm]
  constructor
  · rintro ⟨_, typed, _⟩
    obtain ⟨value, after, ran, typed⟩ := (pushes.wellTyped_iff quiet).mp typed
    exact (accepted ran).mp typed
  · intro meets
    obtain ⟨rfl, _⟩ := id meets
    have gives : GivesLanes floats space (setting.withStack rest)
        (createSIMDExtend p1 (lanesType lanes width) (lanesType (lanes / 2) (2 * width)) 0 sign) _ _ :=
      createSIMDExtend_gives (isX.popped rest) positive
    have leaves := pushes.leaves_folded lawful (createSIMDExtend_keeps isX size positive) gives.yields.computes
      Datum.ofLanes_defined older
    obtain ⟨value, last, ran, _⟩ := gives.yields
    refine ⟨own, (pushes.wellTyped_iff quiet).mpr ⟨value, last.straight, ran.emitted, (accepted ran.emitted).mpr meets⟩, ?_⟩
    have result : Widening.eval floats (.extend sign false lanes width) x y = Datum.ofLanes (lanes / 2) fun index =>
        wrap (2 * width) (laneInteger sign width x index) := by
      simp [Widening.eval, halfStart]
    rw [result]
    exact leaves

theorem visitBinaryInst_extmul {sign high : Bool} {lanes width : Nat} (lawful : folder.Lawful floats space)
    (is : binary.widening? = some (.extmul sign high lanes width)) (top : setting.straight.stack = p1 :: p2 :: rest)
    (older : setting.Older rest) (isX : IsV128 space setting p2 x) (isY : IsV128 space setting p1 y) :
    Correct floats space setting (.binary binary) (foldConstants folder (visitBinaryInst binary)) rest
      (lanesType (lanes / 2) (2 * width)) (Widening.eval floats (.extmul sign high lanes width) x y) ↔
        Widening.meets (.extmul sign high lanes width) [p1, p2] x := by
  obtain ⟨size, positive, some_, code⟩ := @BinaryOpcode.extmul_code p1 p2 binary sign high lanes width is
  have pushes := @visitBinaryInst_pushes p1 p2 rest binary setting.straight _ top code
  have quiet : Quiet (createExtmul p1 p2 (lanesType lanes width) (lanesType (lanes / 2) (2 * width))
      (halfStart high lanes) sign) := createExtmul_quiet ..
  have accepted : ∀ {value after}, createExtmul p1 p2 (lanesType lanes width) (lanesType (lanes / 2) (2 * width))
      (halfStart high lanes) sign (setting.withStack rest).straight = .ok (value, after) →
        (FoldsAccepted folder setting.straight after ↔ Widening.meets (.extmul sign high lanes width) [p1, p2] x) := by
    intro value after ran
    have none_ : FoldsAccepted folder setting.straight (setting.withStack rest).straight := .none rfl
    rw [createExtmul_accepted_iff lawful reaches_withStack isY.holds.older isX.holds.older isX isY size positive ran,
      mask_assigned_iff some_, Widening.meets, List.forall_mem_cons, List.forall_mem_singleton, and_iff_right none_,
      and_comm]
  constructor
  · rintro ⟨_, typed, _⟩
    obtain ⟨value, after, ran, typed⟩ := (pushes.wellTyped_iff quiet).mp typed
    exact (accepted ran).mp typed
  · intro meets
    obtain ⟨rfl, _⟩ := id meets
    have gives : GivesLanes floats space (setting.withStack rest)
        (createExtmul p1 p2 (lanesType lanes width) (lanesType (lanes / 2) (2 * width)) 0 sign) _ _ :=
      createExtmul_gives (isX.popped rest) (isY.popped rest) positive
    have leaves := pushes.leaves_folded lawful (createExtmul_keeps isX isY size positive) gives.yields.computes
      Datum.ofLanes_defined older
    obtain ⟨value, last, ran, _⟩ := gives.yields
    refine ⟨rfl, (pushes.wellTyped_iff quiet).mpr ⟨value, last.straight, ran.emitted, (accepted ran.emitted).mpr meets⟩, ?_⟩
    have result : Widening.eval floats (.extmul sign false lanes width) x y = Datum.ofLanes (lanes / 2) fun index =>
        wrap (2 * width) (laneInteger sign width x index * laneInteger sign width y index) := by
      simp [Widening.eval, halfStart]
    rw [result]
    exact leaves

theorem visitBinaryInst_q15mulrSat (lawful : folder.Lawful floats space)
    (top : setting.straight.stack = p1 :: p2 :: rest) (isX : IsV128 space setting p2 x) (isY : IsV128 space setting p1 y)
    (typed : WellTyped (foldConstants folder (visitBinaryInst .i16x8Q15mulrSatS)) setting.straight) :
    ∀ value ∈ [p1, p2], value.isConstant = true := by
  have emitted : binaryCode .i16x8Q15mulrSatS p1 p2 = some <$> createQ15mulrSat p1 p2 := rfl
  have pushes := visitBinaryInst_pushes top emitted
  obtain ⟨value, after, ran, accepted⟩ := (pushes.wellTyped_iff (createQ15mulrSat_quiet ..)).mp typed
  obtain ⟨constant1, constant2⟩ := createQ15mulrSat_constant lawful reaches_withStack isY.holds.older isX.holds.older
    isX isY ran accepted
  exact List.forall_mem_cons.mpr ⟨constant1, List.forall_mem_singleton.mpr constant2⟩

/-! ## Conversions -/

/-- The code of the conversions of integers ends in that of another one. -/
theorem UnaryOpcode.convert_runsInto {sign : Bool} (is : unary.widening? = some (.convert sign)) :
    unary.runsInto? = some .f64x2ConvertLowI32x4S := by
  cases unary <;> cases is <;> rfl

theorem visitUnaryInst_truncSatZero {sign : Bool} (is : unary.widening? = some (.truncSatZero sign))
    (top : setting.straight.stack = p1 :: rest) :
    ¬WellTyped (foldConstants folder (visitUnaryInst unary)) setting.straight := by
  have pushes := @visitUnaryInst_pushes p1 rest unary setting.straight top
  have code : unaryCode unary p1 = createCast .bitCast p1 f64x2Type >>= fun _ => throw .nullPointer := by
    cases unary <;> cases is <;> rfl
  rw [pushes.wellTyped_iff (unaryCode_quiet ..), code]
  rintro ⟨value, after, ran, _⟩
  obtain ⟨_, middle, _, stops⟩ := bind_ok.mp ran
  cases stops

theorem visitUnaryInst_extaddPairwise {sign : Bool} {lanes width : Nat} (lawful : folder.Lawful floats space)
    (is : unary.widening? = some (.extaddPairwise sign lanes width)) (top : setting.straight.stack = p1 :: rest)
    (older : setting.Older rest) (isX : IsV128 space setting p1 x) :
    Correct floats space setting (.unary unary) (foldConstants folder (visitUnaryInst unary)) rest
      (lanesType (lanes / 2) (2 * width)) (Widening.eval floats (.extaddPairwise sign lanes width) x y) ↔
        (sign = true ∨ lanes = 8) := by
  have right : unary.runsInto? = none → lanes * width = 128 → 0 < width → unaryCode unary p1 =
      createExtaddPairwise (intExtension sign) p1 (lanesType lanes width) (lanesType (lanes / 2) (2 * width)) →
      Correct floats space setting (.unary unary) (foldConstants folder (visitUnaryInst unary)) rest
        (lanesType (lanes / 2) (2 * width)) (Widening.eval floats (.extaddPairwise sign lanes width) x y) := by
    intro own size positive code
    exact visitUnaryInst_correct lawful own top older (code ▸ createExtaddPairwise_types sign isX size positive)
      (code ▸ createExtaddPairwise_monotone) (code ▸ (createExtaddPairwise_gives (isX.popped rest) positive).yields)
      Datum.ofLanes_defined
  cases unary <;> cases is
  · exact iff_of_true (right rfl rfl (by decide) rfl) (.inl rfl)
  · refine iff_of_false (fun correct => ?_) (by simp)
    have ends : UnaryOpcode.runsInto? .i16x8ExtaddPairwiseI8x16U = none := correct.1
    cases ends
  · exact iff_of_true (right rfl rfl (by decide) rfl) (.inl rfl)
  · exact iff_of_true (right rfl rfl (by decide) rfl) (.inr rfl)

theorem converted_defined {count source target : Nat} {kind : CastOp} {lane : Nat → Nat} (converts : floats.Converts)
    (rounds : kind = .siToFP ∨ kind = .uiToFP ∨ kind = .fpTrunc ∨ kind = .fpExt) :
    ∀ bits ∈ (List.range count).map fun index => floats.convert kind source target (lane index), bits ≠ none := by
  intro bits member
  obtain ⟨index, _, rfl⟩ := List.mem_map.mp member
  exact converts.convert rounds

theorem visitUnaryInst_convertLow {sign : Bool} (lawful : folder.Lawful floats space) (converts : floats.Converts)
    (is : unary.widening? = some (.convertLow sign)) (top : setting.straight.stack = p1 :: rest)
    (older : setting.Older rest) (isX : IsV128 space setting p1 x) :
    Correct floats space setting (.unary unary) (foldConstants folder (visitUnaryInst unary)) rest f64x2Type
      (Widening.eval floats (.convertLow sign) x y) := by
  have popped := isX.popped rest
  have defined : ∀ lane ∈ Widening.eval floats (.convertLow sign) x y, lane ≠ none :=
    converted_defined converts (by cases sign <;> simp [intToFloat])
  cases unary <;> cases is
  · refine visitUnaryInst_correct lawful rfl top older ((createLowLanes_types isX).andThen fun ret isRet => ?_)
      (monotone_bind createLowLanes_monotone fun _ => createCast_monotone) ?_ defined
    · exact (createCast_types .siToFP isRet (by simp)).congr (iff_of_true rfl trivial)
    · refine createConvertLow_yields popped fun ret isRet => ?_
      rw [createCast, if_neg (by rw [isRet]; simp)]
      rfl
  · refine visitUnaryInst_correct lawful rfl top older ((createLowLanes_types isX).andThen fun ret isRet => ?_)
      (monotone_bind createLowLanes_monotone fun _ => createUIToFP_monotone) ?_ defined
    · exact (createUIToFP_types isRet).congr (iff_of_true rfl trivial)
    · exact createConvertLow_yields popped fun ret isRet => rfl

theorem visitUnaryInst_demote (lawful : folder.Lawful floats space) (converts : floats.Converts)
    (top : setting.straight.stack = p1 :: rest) (older : setting.Older rest) (isX : IsV128 space setting p1 x) :
    Correct floats space setting (.unary .f32x4DemoteF64x2Zero)
      (foldConstants folder (visitUnaryInst .f32x4DemoteF64x2Zero)) rest f32x4Type (Widening.eval floats .demoteZero x y) := by
  refine visitUnaryInst_correct lawful rfl top older ?_ ?_ (createDemote_yields (isX.popped rest)) ?_
  · refine (isX.bitCast_float_types rfl rfl).andThen fun vec isVec => ?_
    have narrowed : Types (createCast .fpTrunc vec f32x2Type) f32x2Type True :=
      (createCast_types .fpTrunc isVec (by simp)).congr (iff_of_true rfl trivial)
    exact narrowed.andThen fun vec isVec => insertLowLanes_types rfl isVec
  · exact monotone_bind createCast_monotone fun _ => monotone_bind createCast_monotone fun _ => insertLowLanes_monotone
  · intro lane member
    obtain ⟨index, _, rfl⟩ := List.mem_map.mp member
    split
    · exact converts.convert (.inr (.inr (.inl rfl)))
    · exact Option.some_ne_none _

theorem visitUnaryInst_promote (lawful : folder.Lawful floats space) (converts : floats.Converts)
    (top : setting.straight.stack = p1 :: rest) (older : setting.Older rest) (isX : IsV128 space setting p1 x) :
    Correct floats space setting (.unary .f64x2PromoteLowF32x4)
      (foldConstants folder (visitUnaryInst .f64x2PromoteLowF32x4)) rest f64x2Type (Widening.eval floats .promoteLow x y) := by
  refine visitUnaryInst_correct lawful rfl top older ?_ ?_ (createPromote_yields (isX.popped rest))
    (converted_defined converts (.inr (.inr (.inr rfl))))
  · refine (isX.bitCast_float_types rfl rfl).andThen fun vec isVec => ?_
    refine (createShuffleVector_types _ isVec rfl).andThen fun vec isVec => ?_
    exact (createCast_types .fpExt isVec (by simp)).congr (iff_of_true rfl trivial)
  · exact monotone_bind createCast_monotone fun _ => monotone_bind createShuffleVector_monotone fun _ =>
      createCast_monotone

/-- LLVM gives the nearest integer just where the integer part fits. -/
theorem truncSat_eval_iff (truncates : floats.Truncates) {sign : Bool} :
    ((List.range 4).map fun index => floats.convert (floatToInt sign) 32 32 (laneAt 32 x index)) =
      Widening.eval floats (.truncSat sign) x y ↔ (∀ index < 4, truncated? sign 32 32 (laneAt 32 x index) ≠ none) := by
  have lane : ∀ bits, floats.convert (floatToInt sign) 32 32 bits = some (truncateSaturating sign 32 32 bits) ↔
      truncated? sign 32 32 bits ≠ none := by
    intro bits
    rw [truncates.convert]
    cases fits : truncated? sign 32 32 bits with
    | none => simp
    | some number => simp [truncateSaturating_of_truncated fits]
  unfold Widening.eval Datum.ofLanes
  rw [List.map_inj_left]
  refine forall_congr' fun index => ?_
  rw [List.mem_range, lane]

/-- What the conversions toward integers leave, folded or not. -/
theorem visitUnaryInst_truncSat_leaves {sign : Bool} (lawful : folder.Lawful floats space)
    (code : unaryCode unary p1 = createCast .bitCast p1 f32x4Type >>= fun ret => createCast (floatToInt sign) ret i32x4Type)
    (top : setting.straight.stack = p1 :: rest) (older : setting.Older rest) (isX : IsV128 space setting p1 x) :
    Leaves floats space setting (foldConstants folder (visitUnaryInst unary)) rest i32x4Type
      (some ((List.range 4).map fun index => floats.convert (floatToInt sign) 32 32 (laneAt 32 x index))) := by
  have pushes := @visitUnaryInst_pushes p1 rest unary setting.straight top
  have types : Types (createCast .bitCast p1 f32x4Type) f32x4Type True := isX.bitCast_float_types rfl rfl
  have computes : Computes floats space (setting.withStack rest) (createCast .bitCast p1 f32x4Type) f32x4Type _ :=
    bitCast_computes (isX.popped rest) f32x4Type
  obtain ⟨value, before, machine, ran, isType, is⟩ := computes.folded lawful (types.keeps createCast_monotone)
    Datum.ofBits_defined
  obtain ⟨result, after, ranCast⟩ : ∃ result after,
      Visit.create (.op (.cast (floatToInt sign)) i32x4Type [value]) before = .ok (result, after) := ⟨_, _, rfl⟩
  have whole : unaryCode unary p1 (setting.withStack rest).straight = .ok (result, after) := by
    rw [code, bind_run_ok ran, createCast, if_neg (by rw [isType]; simp)]
    exact ranCast
  have reaches := reaches_withStack.trans (types.emits.quiet.appends.reaches ran)
  obtain ⟨machine', is⟩ := is.cast reaches ranCast fun key lanes folds => by
    rw [← @foldedValue_type folder setting.straight before value]
    exact lawful.toInt folds is.datum fun member => Datum.ofBits_defined _ member rfl
  have lanes : CastOp.datum floats (floatToInt sign) value.type i32x4Type (Datum.ofBits f32x4Type x) =
      (List.range 4).map fun index => floats.convert (floatToInt sign) 32 32 (laneAt 32 x index) := by
    rw [isType, Datum.ofBits_ofLanes, CastOp.datum_ofLanes (by cases sign <;> simp [floatToInt])]
    cases sign <;> rfl
  rw [lanes] at is
  exact is.leaves pushes (unaryCode_quiet ..) older whole ((create_emits _).run ranCast).2

theorem visitUnaryInst_truncSat {sign : Bool} (lawful : folder.Lawful floats space) (truncates : floats.Truncates)
    (is : unary.widening? = some (.truncSat sign)) (top : setting.straight.stack = p1 :: rest)
    (older : setting.Older rest) (isX : IsV128 space setting p1 x) :
    Correct floats space setting (.unary unary) (foldConstants folder (visitUnaryInst unary)) rest i32x4Type
      (Widening.eval floats (.truncSat sign) x y) ↔ ∀ index < 4, truncated? sign 32 32 (laneAt 32 x index) ≠ none := by
  have code : unary.runsInto? = none ∧ unaryCode unary p1 =
      createCast .bitCast p1 f32x4Type >>= fun ret => createCast (floatToInt sign) ret i32x4Type := by
    cases unary <;> cases is <;> exact ⟨rfl, rfl⟩
  obtain ⟨own, code⟩ := code
  have types : Types (unaryCode unary p1) i32x4Type True := by
    rw [code]
    refine (isX.bitCast_float_types rfl rfl).andThen fun ret isRet => ?_
    exact (createCast_types _ isRet (by simp)).congr (iff_of_true (by cases sign <;> rfl) trivial)
  have monotone : Monotone (unaryCode unary p1) :=
    code ▸ monotone_bind createCast_monotone fun _ => createCast_monotone
  have leaves := visitUnaryInst_truncSat_leaves lawful code top older isX
  rw [← truncSat_eval_iff (y := y) truncates]
  constructor
  · intro correct
    exact Option.some.inj (leaves.unique correct.2.2)
  · intro same
    have yields : Yields floats space (setting.withStack rest)
        (createCast .bitCast p1 f32x4Type >>= fun ret => createCast (floatToInt sign) ret i32x4Type) i32x4Type _ :=
      createTruncSat_yields (isX.popped rest)
    rw [same, ← code] at yields
    exact visitUnaryInst_correct lawful own top older types monotone yields Datum.ofLanes_defined

/-- The instructions whose code is right. Of the rounded products it is not known what the
folder makes of a sum of constants of different types. -/
theorem visitInstr_widening_correct (environment : Environment) {instr : Instr} {operands : List Value}
    (lawful : folder.Lawful floats space) (truncates : floats.Truncates) (converts : floats.Converts)
    (older : setting.Older rest) (is : instr.widening? = some widening)
    (top : setting.straight.stack = operands ++ rest) (stand : widening.operands space setting operands x y) :
    (widening.meets operands x → Correct floats space setting instr (foldConstants folder (visitInstr environment instr))
      rest widening.resultType (widening.eval floats x y)) ∧
    (Correct floats space setting instr (foldConstants folder (visitInstr environment instr)) rest widening.resultType
      (widening.eval floats x y) →
        widening.meets operands x ∨ widening = .q15mulrSat ∧ ∀ value ∈ operands, value.isConstant = true) := by
  have settled : ∀ {correct : Prop}, (correct ↔ widening.meets operands x) →
      (widening.meets operands x → correct) ∧ (correct → widening.meets operands x ∨ widening = .q15mulrSat ∧
        ∀ value ∈ operands, value.isConstant = true) := fun same => ⟨same.mpr, fun correct => .inl (same.mp correct)⟩
  cases instr with
  | binary opcode =>
      have binary : widening.isBinary = true := by cases opcode <;> cases is <;> rfl
      rw [Widening.operands, if_pos binary] at stand
      obtain ⟨p1, p2, rfl, isX, isY⟩ := stand
      cases widening with
      | extmul sign high lanes width => exact settled (visitBinaryInst_extmul lawful is top older isX isY)
      | q15mulrSat =>
          refine ⟨False.elim, fun correct => .inr ⟨rfl, ?_⟩⟩
          cases opcode <;> cases is
          exact visitBinaryInst_q15mulrSat lawful top isX isY correct.2.1
      | _ => cases binary
  | unary opcode =>
      have unary : ¬widening.isBinary = true := by cases opcode <;> cases is <;> exact Bool.false_ne_true
      rw [Widening.operands, if_neg unary] at stand
      obtain ⟨p1, rfl, isX⟩ := stand
      cases widening with
      | extend sign high lanes width => exact settled (visitUnaryInst_extend lawful is top older isX)
      | extaddPairwise sign lanes width => exact settled (visitUnaryInst_extaddPairwise lawful is top older isX)
      | extmul => exact absurd rfl unary
      | q15mulrSat => exact absurd rfl unary
      | convert sign =>
          refine settled (iff_of_false (fun correct => ?_) id)
          have ends : opcode.runsInto? = none := correct.1
          cases (UnaryOpcode.convert_runsInto is).symm.trans ends
      | convertLow sign =>
          exact settled (iff_of_true (visitUnaryInst_convertLow lawful converts is top older isX) trivial)
      | truncSat sign => exact settled (visitUnaryInst_truncSat lawful truncates is top older isX)
      | truncSatZero sign =>
          exact settled (iff_of_false (fun correct => visitUnaryInst_truncSatZero is top correct.2.1) id)
      | demoteZero =>
          cases opcode <;> cases is
          exact settled (iff_of_true (visitUnaryInst_demote lawful converts top older isX) trivial)
      | promoteLow =>
          cases opcode <;> cases is
          exact settled (iff_of_true (visitUnaryInst_promote lawful converts top older isX) trivial)
  | _ => cases is

/-- The sums that are left are of pairs of lanes of 16 bits. -/
theorem visitUnaryInst_extaddU (lawful : folder.Lawful floats space) (top : setting.straight.stack = p1 :: rest)
    (older : setting.Older rest) (isX : IsV128 space setting p1 x) :
    Leaves floats space setting (foldConstants folder (visitUnaryInst .i16x8ExtaddPairwiseI8x16U)) rest i32x4Type
      (some (Widening.eval floats (.extaddPairwise true 8 16) x y)) := by
  have first : GivesLanes floats space (setting.withStack rest)
      (createExtaddPairwise (intExtension false) p1 (lanesType 16 8) (lanesType 8 16)) _ _ :=
    createExtaddPairwise_gives (isX.popped rest) (by decide)
  have second : ∀ {setting' : Setting}, IsV128 space setting' p1 x → GivesLanes floats space setting'
      (createExtaddPairwise (intExtension true) p1 (lanesType 8 16) (lanesType 4 32)) _ _ :=
    fun isX => createExtaddPairwise_gives isX (by decide)
  have both : GivesLanes floats space (setting.withStack rest) (unaryCode .i16x8ExtaddPairwiseI8x16U p1) i32x4Type _ :=
    first.andThen fun later _ => second ((isX.popped rest).later later)
  have types : Types (unaryCode .i16x8ExtaddPairwiseI8x16U p1) i32x4Type True :=
    (createExtaddPairwise_types false isX rfl (by decide)).andThen fun _ _ =>
      createExtaddPairwise_types true isX rfl (by decide)
  have monotone : Monotone (unaryCode .i16x8ExtaddPairwiseI8x16U p1) :=
    monotone_bind createExtaddPairwise_monotone fun _ => createExtaddPairwise_monotone
  exact (visitUnaryInst_pushes top).leaves_folded lawful (types.keeps monotone) both.yields.computes
    Datum.ofLanes_defined older

end Instructions

/-- `i16x8.extend_low_i8x16_s` of a constant. -/
theorem visitInstr_widening_correct_extend :
    Correct .truncating ⟨0, 65536⟩ (.start [.int 128 0x80FF]) (.unary .i16x8ExtendLowI8x16S)
      (foldConstants (.eager .truncating ⟨0, 65536⟩) (visitInstr onePage (.unary .i16x8ExtendLowI8x16S))) [] i16x8Type
      [some 0xFFFF, some 0xFF80, some 0, some 0, some 0, some 0, some 0, some 0] := by
  have is : Instr.widening? (.unary .i16x8ExtendLowI8x16S) = some (.extend true false 16 8) := rfl
  have stand : Widening.operands ⟨0, 65536⟩ (.start [.int 128 0x80FF]) (.extend true false 16 8) [.int 128 0x80FF]
      0x80FF 0 := ⟨_, rfl, isV128_const (by decide)⟩
  have both := visitInstr_widening_correct onePage Folder.eager_lawful Floats.truncating_truncates
    Floats.truncating_converts .none is rfl stand
  exact both.1 ⟨rfl, List.forall_mem_singleton.mpr rfl⟩

/-- `i16x8.extadd_pairwise_i8x16_u` of 257 has 2 in its first lane, and the code leaves 257. -/
theorem visitInstr_extaddU_signed :
    Widening.eval .truncating (.extaddPairwise false 16 8) 257 0 =
        [some 2, some 0, some 0, some 0, some 0, some 0, some 0, some 0] ∧
      Leaves .truncating ⟨0, 65536⟩ (.start [.int 128 257])
        (foldConstants (.eager .truncating ⟨0, 65536⟩) (visitInstr onePage (.unary .i16x8ExtaddPairwiseI8x16U))) []
        i32x4Type (some [some 257, some 0, some 0, some 0]) ∧
      ¬Correct .truncating ⟨0, 65536⟩ (.start [.int 128 257]) (.unary .i16x8ExtaddPairwiseI8x16U)
        (foldConstants (.eager .truncating ⟨0, 65536⟩) (visitInstr onePage (.unary .i16x8ExtaddPairwiseI8x16U))) []
        i16x8Type (Widening.eval .truncating (.extaddPairwise false 16 8) 257 0) := by
  have leaves : Leaves .truncating ⟨0, 65536⟩ (.start [.int 128 257])
      (foldConstants (.eager .truncating ⟨0, 65536⟩) (visitInstr onePage (.unary .i16x8ExtaddPairwiseI8x16U))) []
      i32x4Type (some (Widening.eval .truncating (.extaddPairwise true 8 16) 257 0)) :=
    visitUnaryInst_extaddU Folder.eager_lawful rfl .none (isV128_const (by decide))
  refine ⟨by decide, leaves, fun correct => ?_⟩
  have lengths := congrArg List.length (Option.some.inj (leaves.unique correct.2.2))
  cases lengths

end WasmToLlvm.Instruction
