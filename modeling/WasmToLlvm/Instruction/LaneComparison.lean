import WasmToLlvm.Instruction.FloatChoice
import WasmToLlvm.Instruction.Folding
import WasmToLlvm.Instruction.Pointwise

/-!
# Comparisons of lanes

The comparisons of vectors in `visitCompareExpr`. Their result is widened to a scalar of 32
bits, which no cast of a vector allows; only the null vector is folded to one.
-/

set_option autoImplicit false

namespace WasmToLlvm.Instruction

open Llvm Wasm Block Library

/-- A comparison of lanes of integers or of floating-point numbers. -/
inductive LaneRelation where
  | int (relation : IntRelation)
  | float (relation : FloatRelation)
  deriving DecidableEq, Repr

def LaneRelation.holds (relation : LaneRelation) (width x y : Nat) : Bool :=
  match relation with
  | .int relation => relation.holds width x y
  | .float relation => relation.holds width x y

/-- The mask for a pair of lanes. -/
def LaneRelation.mask (relation : LaneRelation) (width x y : Nat) : Nat :=
  if relation.holds width x y then 2 ^ width - 1 else 0

/-- The comparison of an opcode, with the shape of the operands and of the mask. -/
def CompareOpcode.laneRelation? : CompareOpcode → Option (LaneRelation × Ty × Ty)
  | .i8x16Eq => some (.int .eq, i8x16Type, i8x16Type)
  | .i8x16Ne => some (.int .ne, i8x16Type, i8x16Type)
  | .i8x16LtS => some (.int .ltS, i8x16Type, i8x16Type)
  | .i8x16LtU => some (.int .ltU, i8x16Type, i8x16Type)
  | .i8x16GtS => some (.int .gtS, i8x16Type, i8x16Type)
  | .i8x16GtU => some (.int .gtU, i8x16Type, i8x16Type)
  | .i8x16LeS => some (.int .leS, i8x16Type, i8x16Type)
  | .i8x16LeU => some (.int .leU, i8x16Type, i8x16Type)
  | .i8x16GeS => some (.int .geS, i8x16Type, i8x16Type)
  | .i8x16GeU => some (.int .geU, i8x16Type, i8x16Type)
  | .i16x8Eq => some (.int .eq, i16x8Type, i16x8Type)
  | .i16x8Ne => some (.int .ne, i16x8Type, i16x8Type)
  | .i16x8LtS => some (.int .ltS, i16x8Type, i16x8Type)
  | .i16x8LtU => some (.int .ltU, i16x8Type, i16x8Type)
  | .i16x8GtS => some (.int .gtS, i16x8Type, i16x8Type)
  | .i16x8GtU => some (.int .gtU, i16x8Type, i16x8Type)
  | .i16x8LeS => some (.int .leS, i16x8Type, i16x8Type)
  | .i16x8LeU => some (.int .leU, i16x8Type, i16x8Type)
  | .i16x8GeS => some (.int .geS, i16x8Type, i16x8Type)
  | .i16x8GeU => some (.int .geU, i16x8Type, i16x8Type)
  | .i32x4Eq => some (.int .eq, i32x4Type, i32x4Type)
  | .i32x4Ne => some (.int .ne, i32x4Type, i32x4Type)
  | .i32x4LtS => some (.int .ltS, i32x4Type, i32x4Type)
  | .i32x4LtU => some (.int .ltU, i32x4Type, i32x4Type)
  | .i32x4GtS => some (.int .gtS, i32x4Type, i32x4Type)
  | .i32x4GtU => some (.int .gtU, i32x4Type, i32x4Type)
  | .i32x4LeS => some (.int .leS, i32x4Type, i32x4Type)
  | .i32x4LeU => some (.int .leU, i32x4Type, i32x4Type)
  | .i32x4GeS => some (.int .geS, i32x4Type, i32x4Type)
  | .i32x4GeU => some (.int .geU, i32x4Type, i32x4Type)
  | .i64x2Eq => some (.int .eq, i64x2Type, i64x2Type)
  | .i64x2Ne => some (.int .ne, i64x2Type, i64x2Type)
  | .i64x2LtS => some (.int .ltS, i64x2Type, i64x2Type)
  | .i64x2GtS => some (.int .gtS, i64x2Type, i64x2Type)
  | .i64x2LeS => some (.int .leS, i64x2Type, i64x2Type)
  | .i64x2GeS => some (.int .geS, i64x2Type, i64x2Type)
  | .f32x4Eq => some (.float .eq, f32x4Type, i32x4Type)
  | .f32x4Ne => some (.float .ne, f32x4Type, i32x4Type)
  | .f32x4Lt => some (.float .lt, f32x4Type, i32x4Type)
  | .f32x4Gt => some (.float .gt, f32x4Type, i32x4Type)
  | .f32x4Le => some (.float .le, f32x4Type, i32x4Type)
  | .f32x4Ge => some (.float .ge, f32x4Type, i32x4Type)
  | .f64x2Eq => some (.float .eq, f64x2Type, i64x2Type)
  | .f64x2Ne => some (.float .ne, f64x2Type, i64x2Type)
  | .f64x2Lt => some (.float .lt, f64x2Type, i64x2Type)
  | .f64x2Gt => some (.float .gt, f64x2Type, i64x2Type)
  | .f64x2Le => some (.float .le, f64x2Type, i64x2Type)
  | .f64x2Ge => some (.float .ge, f64x2Type, i64x2Type)
  | _ => none

section Comparisons

variable {floats : Floats} {space : Space} {folder : Folder} {setting : Setting} {start before after : Straight Operation}
  {p1 p2 value left right : Value} {rest : List Value} {x y : Nat} {relation : LaneRelation} {shape result : Ty}
  {opcode : CompareOpcode}

/-! ## The code -/

/-- The comparison that is asked for; for `ne` of floating-point numbers it is that of `eq`. -/
def LaneRelation.request (relation : LaneRelation) (left right : Value) : Plain Operation :=
  match relation with
  | .int relation => .icmp (intPredicate relation) left right
  | .float relation => .op (.fcmp (floatPredicate relation)) left.type.comparison [left, right]

/-- What it finds on two lanes, the second operand being on the left. -/
def LaneRelation.found (relation : LaneRelation) (width x y : Nat) : Bool :=
  match relation with
  | .int relation => relation.holds width y x
  | .float relation => (floatPredicate relation).holds width y x

/-- The code of a comparison of lanes. -/
def laneComparison (relation : LaneRelation) (shape result : Ty) (p1 p2 : Value) : Emit Value :=
  emitSimdBinaryOp shape p1 p2 (fun left right => Visit.create (relation.request left right)) >>= fun ret =>
    widenComparison ret (some result)

theorem compareCode_lanes (p1 p2 : Value) (is : opcode.laneRelation? = some (relation, shape, result)) :
    compareCode opcode p1 p2 = (·, some result) <$> emitSimdBinaryOp shape p1 p2 fun left right =>
      Visit.create (relation.request left right) := by
  cases opcode <;> cases is <;> rfl

theorem CompareOpcode.laneRelation?_shape (is : opcode.laneRelation? = some (relation, shape, result)) :
    ∃ lanes element, shape = .vector lanes element ∧ shape.size = 128 ∧ result.isVector = true ∧
      0 < shape.laneBits ∧ result.lanes = shape.lanes ∧
      match relation with
      | .int _ => element.isInt = true
      | .float _ => element.isFloat = true := by
  cases opcode <;> cases is <;> exact ⟨_, _, rfl, rfl, rfl, by decide, rfl, rfl⟩

theorem visitCompareExpr_pushes (is : opcode.laneRelation? = some (relation, shape, result))
    (stack : start.stack = p1 :: p2 :: rest) :
    Pushes (visitCompareExpr opcode) start (laneComparison relation shape result p1 p2) rest := by
  rw [Pushes, visitCompareExpr, popStack_run stack, popStack_run rfl, compareCode_lanes p1 p2 is, laneComparison,
    bind_map_left, bind_assoc]

theorem laneComparison_quiet : Quiet (laneComparison relation shape result p1 p2) := by
  unfold laneComparison emitSimdBinaryOp widenComparison
  refine quiet_bind (quiet_bind (createCast_quiet ..) fun _ => quiet_bind (createCast_quiet ..) fun _ =>
    (create_emits _).quiet) fun _ => quiet_bind (createCast_quiet ..) fun _ => createCast_quiet ..

/-! ## Lanes -/

/-- The bits that the code's comparison gives, lane by lane. -/
def foundLanes (relation : LaneRelation) (shape : Ty) (x y : Nat) : Datum :=
  lanewise shape (fun y x => bit (relation.found shape.laneBits x y)) y x

theorem lanewise_eq_ofLanes {combine : Nat → Nat → Nat} : lanewise shape combine x y =
    Datum.ofLanes shape.lanes fun index => combine (laneAt shape.laneBits x index) (laneAt shape.laneBits y index) := by
  rw [lanewise, unpack_eq_map, unpack_eq_map, List.zipWith_map, List.zipWith_self]
  rfl

theorem lanewise_zero_iff {combine : Nat → Nat → Nat} :
    lanewise shape combine x y = List.replicate shape.lanes (some 0) ↔
      ∀ index < shape.lanes, combine (laneAt shape.laneBits x index) (laneAt shape.laneBits y index) = 0 := by
  rw [lanewise_eq_ofLanes, Datum.ofLanes, List.eq_replicate_iff]
  simp

theorem bit_eq_zero {condition : Bool} : bit condition = 0 ↔ condition = false := by
  cases condition <;> simp [bit]

theorem LaneRelation.mask_eq_zero {width : Nat} (positive : 0 < width) :
    relation.mask width x y = 0 ↔ relation.holds width x y = false := by
  have wide : 2 ^ 1 ≤ 2 ^ width := Nat.pow_le_pow_right (by decide) positive
  unfold mask
  cases relation.holds width x y with
  | true => simp; omega
  | false => simp

theorem request_type : (relation.request left right).type = left.type.comparison := by
  cases relation <;> rfl

theorem request_wellTyped (is : opcode.laneRelation? = some (relation, shape, result)) (isLeft : left.type = shape)
    (isRight : right.type = shape) : (relation.request left right).wellTyped = true := by
  obtain ⟨count, element, rfl, _, _, _, _, scalar⟩ := CompareOpcode.laneRelation?_shape is
  cases relation <;>
    simp [LaneRelation.request, Plain.wellTyped, Operation.wellTyped, isLeft, isRight, Ty.scalar, scalar]

theorem request_executes (laws : floats.Lawful) (isLeft : left.type = shape)
    (holdsLeft : left.datum space setting.machine = some (Datum.ofBits shape y))
    (holdsRight : right.datum space setting.machine = some (Datum.ofBits shape x)) (id : Nat) :
    (relation.request left right).execute floats space setting.machine id =
      some (setting.machine.define id (foundLanes relation shape x y)) := by
  cases relation with
  | int relation =>
      rw [LaneRelation.request, Plain.execute_icmp holdsLeft holdsRight, isLeft, zip_lanewise]
      · rfl
      · intro y smallY x smallX
        rw [Lane.lift_some, intPredicate_holds smallY smallX]
        rfl
  | float relation =>
      have stand : [left, right].mapM (Value.datum space setting.machine) =
          some [Datum.ofBits shape y, Datum.ofBits shape x] := by
        simp [holdsLeft, holdsRight]
      rw [LaneRelation.request, Plain.execute_op rfl, stand, Option.bind_some, List.map_cons, List.map_singleton,
        Operation.eval_fcmp, isLeft, zip_lanewise]
      · rfl
      · intro y smallY x smallX
        rw [Lane.lift_some, laws.compare]
        rfl

/-- The comparison of regrouped operands is folded to the bits it finds. -/
theorem request_folds (lawful : folder.Lawful floats space) (laws : floats.Lawful)
    (is : opcode.laneRelation? = some (relation, shape, result)) (isLeft : left.type = shape) (isRight : right.type = shape)
    (holdsLeft : left.datum space setting.machine = some (Datum.ofBits shape y))
    (holdsRight : right.datum space setting.machine = some (Datum.ofBits shape x)) {key : Nat} {lanes : Datum}
    (folds : folder.fold (relation.request left right) = some (key, lanes)) : lanes = foundLanes relation shape x y := by
  refine lawful.exact_ folds (.inl (request_wellTyped is isLeft isRight))
    (request_executes laws isLeft holdsLeft holdsRight 0) fun lane member => ?_
  rw [foundLanes, lanewise_eq_ofLanes] at member
  obtain ⟨index, _, rfl⟩ := List.mem_map.mp member
  exact Option.some_ne_none _

/-! ## The mask -/

/-- The comparison of the operands is that of two constants, and the folder has its result. -/
def FoldsComparison (folder : Folder) (relation : LaneRelation) (shape : Ty) (p1 p2 : Value) : Prop :=
  ∃ left right, regroup folder p1 shape = some left ∧ regroup folder p2 shape = some right ∧
    folder.fold (relation.request left right) ≠ none

theorem request_mapOperands {change : Value → Value} (same : SameTypes change) :
    (relation.request left right).mapOperands change = relation.request (change left) (change right) := by
  cases relation with
  | int relation => rfl
  | float relation => rw [LaneRelation.request, Plain.mapOperands, LaneRelation.request, same]; rfl

theorem request_operands : (relation.request left right).operands = [left, right] := by
  cases relation <;> rfl

/-- The steps of the code: the casts of the operands, the comparison and what it becomes. -/
theorem laneComparison_steps (lawful : folder.Lawful floats space) (reaches : Reaches start before)
    (older1 : p1.OlderThan (start.next + start.code.length)) (older2 : p2.OlderThan (start.next + start.code.length))
    (ran : laneComparison relation shape result p1 p2 before = .ok (value, after)) :
    ∃ middle ret, Reaches start middle ∧ ret.type = shape.comparison ∧
      widenComparison ret (some result) middle = .ok (value, after) ∧
      ((∃ left right key lanes, regroup folder p1 shape = some left ∧ regroup folder p2 shape = some right ∧
          folder.fold (relation.request left right) = some (key, lanes) ∧
          foldedValue folder start middle ret = .constant key shape.comparison lanes ∧
          (foldedCode folder start middle).code = (foldedCode folder start before).code) ∨
        (¬FoldsComparison folder relation shape p1 p2 ∧ (foldedValue folder start middle ret).isConstant = false)) := by
  obtain ⟨ret, middle, ranCompare, ranWiden⟩ := bind_ok.mp ran
  obtain ⟨right, first, ranRight, ranCompare⟩ := bind_ok.mp ranCompare
  obtain ⟨left, second, ranLeft, ranCompare⟩ := bind_ok.mp ranCompare
  have toFirst := reaches.trans ((createCast_quiet ..).appends.reaches ranRight)
  have further := (createCast_quiet ..).appends.reaches ranLeft
  have toSecond := toFirst.trans further
  have isLeft : left.type = shape := ((createCast_emits ..).run ranLeft).2
  have isRight : foldedValue folder start second right = foldedValue folder start first right :=
    foldedValue_later toFirst further (createCast_older (older2.mono reaches.nextId_le) ranRight)
  have isType : (relation.request left right).type = shape.comparison := by rw [request_type, isLeft]
  refine ⟨middle, ret, toSecond.trans ((create_emits _).quiet.appends.reaches ranCompare),
    isType ▸ ((create_emits _).run ranCompare).2, ranWiden, ?_⟩
  have compares : _ ∨ _ := @create_folded folder _ _ _ _ _ toSecond ranCompare
  rw [request_mapOperands fun _ => foldedValue_type, isRight, isType] at compares
  have apart : (foldedValue folder start second left).isConstant = false ∨
      (foldedValue folder start first right).isConstant = false →
        (foldedValue folder start middle ret).isConstant = false := by
    intro apart
    rcases compares with ⟨key, lanes, folds, _, _⟩ | ⟨_, isRet, _⟩
    · have constant := lawful.constants folds
      rw [request_operands] at constant
      rcases apart with apart | apart
      · exact absurd (constant _ List.mem_cons_self) (by simp [apart])
      · exact absurd (constant _ (List.mem_cons_of_mem _ List.mem_cons_self)) (by simp [apart])
    · rw [isRet]
      rfl
  have groupRight : _ ∨ _ := @bitCast_folded folder _ _ _ _ _ _ reaches older2 ranRight
  have groupLeft : _ ∨ _ := @bitCast_folded folder _ _ _ _ _ _ toFirst older1 ranLeft
  rcases groupRight with ⟨group2, code2⟩ | ⟨none2, apart2⟩
  · rcases groupLeft with ⟨group1, code1⟩ | ⟨none1, apart1⟩
    · rcases compares with ⟨key, lanes, folds, isRet, code⟩ | ⟨none_, isRet, _⟩
      · exact .inl ⟨_, _, key, lanes, group1, group2, folds, isRet, by rw [code, code1, code2]⟩
      · refine .inr ⟨?_, by rw [isRet]; rfl⟩
        rintro ⟨left', right', same1, same2, folds⟩
        cases group1.symm.trans same1
        cases group2.symm.trans same2
        exact folds none_
    · refine .inr ⟨?_, apart (.inl apart1)⟩
      rintro ⟨_, _, same1, _⟩
      cases none1.symm.trans same1
  · refine .inr ⟨?_, apart (.inr apart2)⟩
    rintro ⟨_, _, _, same2, _⟩
    cases none2.symm.trans same2

theorem widenComparison_run (vector : result.isVector = true) (compared : left.type.isVector = true)
    (ran : widenComparison left (some result) before = .ok (value, after)) :
    ∃ scalar middle, Visit.create (.op (.cast .zext) i32Type [left]) before = .ok (scalar, middle) ∧
      Visit.create (.op (.cast .sext) result [scalar]) middle = .ok (value, after) := by
  obtain ⟨scalar, middle, ranScalar, ranResult⟩ := bind_ok.mp ran
  have isScalar : scalar.type = i32Type := ((createCast_emits ..).run ranScalar).2
  have apart : ∀ {type : Ty}, type.isVector = true → type ≠ i32Type := by
    rintro type vector rfl
    cases vector
  have ranResult : createCast .sext scalar result middle = .ok (value, after) := ranResult
  unfold createCast at ranScalar ranResult
  rw [if_neg (apart compared)] at ranScalar
  rw [if_neg fun same => apart vector (same.symm.trans isScalar)] at ranResult
  exact ⟨scalar, middle, ranScalar, ranResult⟩

/-- Widening a null comparison gives the null vector, without an instruction. -/
theorem widenComparison_null (lawful : folder.Lawful floats space) (reaches : Reaches start before)
    (vector : result.isVector = true) (compared : left.type.isVector = true)
    (null : folder.isNull (foldedValue folder start before left) = true)
    (ran : widenComparison left (some result) before = .ok (value, after)) :
    (∃ key, foldedValue folder start after value = .constant key result (List.replicate result.lanes (some 0))) ∧
      (foldedCode folder start after).code = (foldedCode folder start before).code := by
  obtain ⟨scalar, middle, ranScalar, ranResult⟩ := widenComparison_run vector compared ran
  obtain ⟨_, null', code⟩ := nullCast_folded lawful (.inl rfl) reaches null ranScalar
  have toMiddle := reaches.trans ((create_emits _).quiet.appends.reaches ranScalar)
  obtain ⟨is, _, code'⟩ := nullCast_folded lawful (.inr (.inl rfl)) toMiddle null' ranResult
  exact ⟨is, code'.trans code⟩

/-- No other comparison without poison is widened in code that is accepted. -/
theorem widenComparison_accepted (reaches : Reaches start before)
    (vector : result.isVector = true) (compared : left.type.isVector = true)
    (ran : widenComparison left (some result) before = .ok (value, after))
    (accepted : FoldsAccepted folder start after) :
    ∃ made, folder.fold (.op (.cast .zext) i32Type [foldedValue folder start before left]) = some made := by
  obtain ⟨scalar, middle, ranScalar, ranResult⟩ := widenComparison_run vector compared ran
  have further := (create_emits _).quiet.appends.reaches ranScalar
  have accepted := accepted.earlier (reaches.trans further) ((create_emits _).quiet.appends.reaches ranResult)
  have illTyped : Plain.wellTyped (.op (.cast .zext) i32Type [left]) = false := by
    have scalar : i32Type.isVector = false := rfl
    simp [Plain.wellTyped, Operation.wellTyped, CastOp.accepts, Ty.sameShape, compared, scalar]
  have folds := ((create_accepted_iff reaches ranScalar).mp accepted).2
  rw [illTyped] at folds
  exact Option.ne_none_iff_exists'.mp (folds.resolve_right Bool.false_ne_true)

/-! ## Results -/

theorem createCast_runs (kind : CastOp) (value : Value) (type : Ty) (before : Straight Operation) :
    ∃ result after, createCast kind value type before = .ok (result, after) := by
  unfold createCast
  split <;> exact ⟨_, _, rfl⟩

theorem laneComparison_runs : ∃ value after, laneComparison relation shape result p1 p2 before = .ok (value, after) := by
  obtain ⟨right, first, ranRight⟩ := createCast_runs .bitCast p2 shape before
  obtain ⟨left, second, ranLeft⟩ := createCast_runs .bitCast p1 shape first
  obtain ⟨ret, third, ranCompare⟩ : ∃ ret third, Visit.create (relation.request left right) second = .ok (ret, third) :=
    ⟨_, _, rfl⟩
  obtain ⟨scalar, fourth, ranScalar⟩ := createCast_runs .zext ret i32Type third
  obtain ⟨value, after, ranResult⟩ := createCast_runs .sext scalar result fourth
  have compared : emitSimdBinaryOp shape p1 p2 (fun left right => Visit.create (relation.request left right)) before =
      .ok (ret, third) := (bind_run_ok ranRight).trans ((bind_run_ok ranLeft).trans ranCompare)
  exact ⟨value, after, (bind_run_ok compared).trans ((bind_run_ok ranScalar).trans ranResult)⟩

/-- The comparison of two operands, with what it has been folded to. -/
theorem laneComparison_folded (lawful : folder.Lawful floats space) (laws : floats.Lawful)
    (is : opcode.laneRelation? = some (relation, shape, result)) (isX : IsV128 space setting p2 x)
    (isY : IsV128 space setting p1 y) (reaches : Reaches setting.straight before)
    (ran : laneComparison relation shape result p1 p2 before = .ok (value, after)) :
    ∃ middle ret, Reaches setting.straight middle ∧ ret.type = shape.comparison ∧
      widenComparison ret (some result) middle = .ok (value, after) ∧
      ((FoldsComparison folder relation shape p1 p2 ∧
          (∃ key, foldedValue folder setting.straight middle ret =
            .constant key shape.comparison (foundLanes relation shape x y)) ∧
          (foundLanes relation shape x y = List.replicate shape.lanes (some 0) →
            folder.isNull (foldedValue folder setting.straight middle ret) = true) ∧
          (foldedCode folder setting.straight middle).code = (foldedCode folder setting.straight before).code) ∨
        (¬FoldsComparison folder relation shape p1 p2 ∧
          (foldedValue folder setting.straight middle ret).isConstant = false)) := by
  have whole := CompareOpcode.laneRelation?_shape is
  obtain ⟨count, element, isShape, size, _, _, _, scalar⟩ := whole
  have scalar : shape.scalar.isInt ∨ shape.scalar.isFloat := by
    subst isShape
    cases relation with
    | int => exact .inl scalar
    | float => exact .inr scalar
  obtain ⟨middle, ret, toMiddle, isRet, ranWiden, outcome⟩ :=
    laneComparison_steps lawful reaches isY.holds.older isX.holds.older ran
  refine ⟨middle, ret, toMiddle, isRet, ranWiden, outcome.imp ?_ id⟩
  rintro ⟨left, right, key, lanes, group1, group2, folds, isValue, code⟩
  obtain ⟨isLeft, holdsLeft⟩ := regroup_datum lawful isY size scalar group1
  obtain ⟨isRight, holdsRight⟩ := regroup_datum lawful isX size scalar group2
  have found := request_folds lawful laws is isLeft isRight holdsLeft holdsRight folds
  subst found
  refine ⟨⟨left, right, group1, group2, by simp [folds]⟩, ⟨key, isValue⟩, fun nothing => ?_, code⟩
  have isType : (relation.request left right).type = shape.comparison := by rw [request_type, isLeft]
  have null := lawful.falseNull folds (by cases relation <;> rfl) fun lane member =>
    List.eq_of_mem_replicate (nothing ▸ member)
  rw [isType] at null
  rw [isValue]
  exact null

/-- Where the comparison is folded and finds nothing, the null vector is left. -/
theorem laneComparison_false (lawful : folder.Lawful floats space) (laws : floats.Lawful)
    (is : opcode.laneRelation? = some (relation, shape, result)) (stack : setting.straight.stack = p1 :: p2 :: rest)
    (isX : IsV128 space setting p2 x) (isY : IsV128 space setting p1 y) (older : setting.Older rest)
    (folds : FoldsComparison folder relation shape p1 p2)
    (nothing : foundLanes relation shape x y = List.replicate shape.lanes (some 0)) :
    WellTyped (foldConstants folder (visitCompareExpr opcode)) setting.straight ∧
      Leaves floats space setting (foldConstants folder (visitCompareExpr opcode)) rest result
        (some (List.replicate result.lanes (some 0))) := by
  obtain ⟨_, _, rfl, _, vector, _⟩ := CompareOpcode.laneRelation?_shape is
  have pushes := visitCompareExpr_pushes is stack
  have reaches : Reaches setting.straight (setting.withStack rest).straight := ⟨rfl, List.prefix_refl _⟩
  obtain ⟨value, after, ran⟩ : ∃ value after,
      laneComparison relation _ result p1 p2 (setting.withStack rest).straight = .ok (value, after) := laneComparison_runs
  obtain ⟨middle, ret, toMiddle, isRet, ranWiden, outcome⟩ := laneComparison_folded lawful laws is isX isY reaches ran
  obtain ⟨_, _, null, code⟩ := outcome.resolve_right fun never => never.1 folds
  obtain ⟨⟨key, isValue⟩, code'⟩ := widenComparison_null lawful toMiddle vector (by rw [isRet]; rfl) (null nothing) ranWiden
  have none_ : (foldedCode folder setting.straight after).code = [] := by
    rw [code', code]
    exact congrArg Folding.code (foldedCode_start rfl)
  refine ⟨(pushes.wellTyped_iff laneComparison_quiet).mpr ⟨value, after, ran, fun plain member => ?_⟩, ?_⟩
  · rw [none_] at member
    cases member
  · have isType : value.type = result := by
      rw [← @foldedValue_type folder setting.straight after, isValue]
      rfl
    have is : FoldedAs floats space folder setting value after setting.machine (List.replicate result.lanes (some 0)) := by
      refine ⟨by rw [none_]; rfl, by rw [isValue]; rfl, ?_, rfl⟩
      rw [isValue]
      exact fun inst => nomatch inst
    exact is.leaves pushes laneComparison_quiet older ran isType

/-- The code is accepted only there. -/
theorem laneComparison_accepted (lawful : folder.Lawful floats space) (laws : floats.Lawful)
    (is : opcode.laneRelation? = some (relation, shape, result)) (stack : setting.straight.stack = p1 :: p2 :: rest)
    (isX : IsV128 space setting p2 x) (isY : IsV128 space setting p1 y)
    (typed : WellTyped (foldConstants folder (visitCompareExpr opcode)) setting.straight) :
    FoldsComparison folder relation shape p1 p2 ∧ foundLanes relation shape x y = List.replicate shape.lanes (some 0) := by
  obtain ⟨count, element, isShape, _, vector, _⟩ := CompareOpcode.laneRelation?_shape is
  have reaches : Reaches setting.straight (setting.withStack rest).straight := ⟨rfl, List.prefix_refl _⟩
  obtain ⟨value, after, ran, accepted⟩ :=
    ((visitCompareExpr_pushes is stack).wellTyped_iff laneComparison_quiet).mp typed
  obtain ⟨middle, ret, toMiddle, isRet, ranWiden, outcome⟩ := laneComparison_folded lawful laws is isX isY reaches ran
  have compared : ret.type.isVector = true := by rw [isRet, isShape]; rfl
  obtain ⟨made, folds⟩ := widenComparison_accepted toMiddle vector compared ranWiden accepted
  have constant := lawful.constants folds _ List.mem_cons_self
  obtain ⟨folded, ⟨key, isValue⟩, _, _⟩ := outcome.resolve_right fun never => by rw [never.2] at constant; cases constant
  refine ⟨folded, ?_⟩
  rw [isValue] at folds
  have defined : none ∉ foundLanes relation shape x y := by
    rw [foundLanes, lanewise_eq_ofLanes, Datum.ofLanes]
    simp
  have casts : IllTypedCast .zext (Value.constant key shape.comparison (foundLanes relation shape x y)).type i32Type :=
    .inl ⟨rfl, by rw [isShape]; rfl, rfl⟩
  have stands : (Value.constant key shape.comparison (foundLanes relation shape x y)).datum space setting.machine =
      some (foundLanes relation shape x y) := rfl
  have null := lawful.onlyNull casts folds stands defined
  have zeros := stands.symm.trans (lawful.null null).2
  subst isShape
  exact Option.some.inj zeros

/-- A comparison of lanes leaves the mask in code that is accepted only where LLVM folds it
and it finds nothing on any lanes. -/
theorem visitInstr_mask_iff (environment : Environment) (lawful : folder.Lawful floats space) (laws : floats.Lawful)
    (is : opcode.laneRelation? = some (relation, shape, result)) (stack : setting.straight.stack = p1 :: p2 :: rest)
    (isX : IsV128 space setting p2 x) (isY : IsV128 space setting p1 y) (older : setting.Older rest) :
    (WellTyped (foldConstants folder (visitInstr environment (.compare opcode))) setting.straight ∧
      Leaves floats space setting (foldConstants folder (visitInstr environment (.compare opcode))) rest result
        (some (lanewise shape (relation.mask shape.laneBits) x y))) ↔
      FoldsComparison folder relation shape p1 p2 ∧ ∀ index < shape.lanes,
        relation.holds shape.laneBits (laneAt shape.laneBits x index) (laneAt shape.laneBits y index) = false ∧
        relation.found shape.laneBits (laneAt shape.laneBits x index) (laneAt shape.laneBits y index) = false := by
  obtain ⟨_, _, _, _, _, positive, lanes, _⟩ := CompareOpcode.laneRelation?_shape is
  have finds : foundLanes relation shape x y = List.replicate shape.lanes (some 0) ↔ ∀ index < shape.lanes,
      relation.found shape.laneBits (laneAt shape.laneBits x index) (laneAt shape.laneBits y index) = false :=
    lanewise_zero_iff.trans (forall₂_congr fun _ _ => bit_eq_zero)
  have masks : lanewise shape (relation.mask shape.laneBits) x y = List.replicate shape.lanes (some 0) ↔
      ∀ index < shape.lanes,
        relation.holds shape.laneBits (laneAt shape.laneBits x index) (laneAt shape.laneBits y index) = false :=
    lanewise_zero_iff.trans (forall₂_congr fun _ _ => LaneRelation.mask_eq_zero positive)
  constructor
  · rintro ⟨typed, leaves⟩
    obtain ⟨folds, nothing⟩ := laneComparison_accepted lawful laws is stack isX isY typed
    have null := (laneComparison_false lawful laws is stack isX isY older folds nothing).2
    have same := Option.some.inj (leaves.unique null)
    rw [lanes] at same
    exact ⟨folds, fun index inside => ⟨masks.mp same index inside, finds.mp nothing index inside⟩⟩
  · rintro ⟨folds, none_⟩
    have nothing := finds.mpr fun index inside => (none_ index inside).2
    have same := masks.mpr fun index inside => (none_ index inside).1
    rw [same, ← lanes]
    exact laneComparison_false lawful laws is stack isX isY older folds nothing

end Comparisons

/-- `i32x4.ne` on two null constants leaves the null mask. -/
theorem visitInstr_mask_iff_zero :
    WellTyped (foldConstants (.eager (.choosing true) ⟨0, 65536⟩) (visitInstr onePage (.compare .i32x4Ne)))
        (Setting.start [.int 128 0, .int 128 0]).straight ∧
      Leaves (.choosing true) ⟨0, 65536⟩ (.start [.int 128 0, .int 128 0])
        (foldConstants (.eager (.choosing true) ⟨0, 65536⟩) (visitInstr onePage (.compare .i32x4Ne))) [] i32x4Type
        (some (lanewise i32x4Type (LaneRelation.mask (.int .ne) 32) 0 0)) := by
  have is : CompareOpcode.laneRelation? .i32x4Ne = some (.int .ne, i32x4Type, i32x4Type) := rfl
  have zero : IsV128 ⟨0, 65536⟩ (.start [.int 128 0, .int 128 0]) (.int 128 0) 0 := isV128_const (by decide)
  refine (visitInstr_mask_iff onePage Folder.eager_lawful (Floats.choosing_lawful true) is rfl zero zero .none).mpr
    ⟨⟨_, _, rfl, rfl, ?_⟩, by decide⟩
  decide

/-- The code of `i32x4.eq` on the constants 5 and 3 is not accepted. -/
theorem visitInstr_eq_illTyped :
    ¬WellTyped (foldConstants (.eager (.choosing true) ⟨0, 65536⟩) (visitInstr onePage (.compare .i32x4Eq)))
      (Setting.start [.int 128 3, .int 128 5]).straight := by
  have is : CompareOpcode.laneRelation? .i32x4Eq = some (.int .eq, i32x4Type, i32x4Type) := rfl
  have isX : IsV128 ⟨0, 65536⟩ (.start [.int 128 3, .int 128 5]) (.int 128 5) 5 := isV128_const (by decide)
  have isY : IsV128 ⟨0, 65536⟩ (.start [.int 128 3, .int 128 5]) (.int 128 3) 3 := isV128_const (by decide)
  intro typed
  have nothing := (laneComparison_accepted Folder.eager_lawful (Floats.choosing_lawful true) is rfl isX isY typed).2
  exact absurd nothing (by decide)

end WasmToLlvm.Instruction
