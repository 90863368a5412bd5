import WasmToLlvm.Instruction.Folding
import WasmToLlvm.Instruction.LaneAccess
import WasmToLlvm.Instruction.Pointwise

/-!
# Lanes in memory

The loads and stores of single lanes. Their address is a bitcast of the popped integer, which
only LLVM's folding of the null value lets pass.
-/

set_option autoImplicit false

namespace WasmToLlvm.Instruction

open Llvm Wasm Block Library

def Setting.withBytes (setting : Setting) (bytes : Bytes) : Setting :=
  ⟨setting.straight, { setting.machine with bytes := bytes }⟩

/-- A lane that is loaded replaces that of the vector. -/
structure LoadsLane (floats : Floats) (space : Space) (visit : Emit Unit) (setting : Setting) (rest : List Value)
    (type : Ty) (lane v address : Nat) : Prop where
  typed : WellTyped visit setting.straight
  loads : Leaves floats space setting visit rest type
    (some ((Datum.ofBits type v).set lane (some (setting.machine.bytes.read address (type.laneBits / 8)))))

/-- Whatever the memory holds, the bytes of a lane are stored, and no others. -/
structure StoresLane (floats : Floats) (space : Space) (visit : Emit Unit) (setting : Setting) (type : Ty)
    (lane v address : Nat) : Prop where
  typed : WellTyped visit setting.straight
  stores : ∀ bytes, ∃ setting', runCode floats space visit (setting.withBytes bytes) = some ((), setting') ∧
    Replaced bytes setting'.machine.bytes address (type.laneBits / 8) (byteOf (laneAt type.laneBits v lane))

section Memory

variable {floats : Floats} {space : Space} {folder : Folder} {setting : Setting}
  {vec addr : Value} {rest : List Value} {offset lane v base : Nat} {opcode : StoreLaneOpcode}

/-- The type of the vector is taken for that of an array. -/
theorem visitSimdLoadLane_rejected {opcode : LoadLaneOpcode} (stack : setting.straight.stack = vec :: addr :: rest) :
    ¬WellTyped (foldConstants folder (visitSimdLoadLane opcode lane)) setting.straight := by
  rw [wellTyped_foldConstants]
  rintro ⟨after, ran, _⟩
  rw [visitSimdLoadLane, popStack_run stack, popStack_run rfl] at ran
  unfold createLoadLane at ran
  obtain ⟨ret, last, ranLoad, _⟩ := bind_ok.mp ran
  obtain ⟨vector, middle, _, ranRest⟩ := bind_ok.mp ranLoad
  obtain ⟨elementType, middle', ranElement, _⟩ := bind_ok.mp ranRest
  cases opcode <;> cases ranElement

/-! ## The code of a store -/

/-- The operands of the store. -/
def storedLane (vec addr : Value) (type : Ty) (imm : Nat) : Emit (Value × Value) := do
  let vector ← createCast .bitCast vec type
  let place ← createCast .bitCast addr .ptr
  let result ← createExtractElement vector imm
  pure (result, place)

theorem createStoreLane_eq (type : Ty) : createStoreLane vec addr type lane =
    storedLane vec addr type lane >>= fun operands => createStore operands.1 operands.2 := by
  simp only [createStoreLane, storedLane, bind_assoc, pure_bind]

theorem visitSimdStoreLane_pushes {start : Straight Operation} (stack : start.stack = vec :: addr :: rest) :
    Pushes (visitSimdStoreLane opcode lane) start (createStoreLane vec addr opcode.type lane) rest := by
  rw [Pushes, visitSimdStoreLane, popStack_run stack, popStack_run rfl]

theorem StoreLaneOpcode.type_vector (opcode : StoreLaneOpcode) : ∃ lanes width, opcode.type = .vector lanes (.int width) ∧
    opcode.type.size = 128 ∧ (Ty.int width).bytes = width / 8 ∧ 8 * (width / 8) = width ∧ 0 < width / 8 ∧
      lanes < 2 ^ 64 := by
  cases opcode <;> exact ⟨_, _, rfl, rfl, rfl, rfl, by decide, by decide⟩

theorem storedLane_keeps {lanes width : Nat} (isV : IsV128 space setting vec v) (isAddr : addr.type = i32Type)
    (size : (Ty.vector lanes (.int width)).size = 128) :
    Asks Keeps (storedLane vec addr (.vector lanes (.int width)) lane) fun operands =>
      operands.1.type = .int width ∧ operands.2.type = .ptr := by
  have vector : Types (createCast .bitCast vec (.vector lanes (.int width))) (.vector lanes (.int width)) True :=
    bitCast_types (isV.size.trans size.symm) isV.scalar (.inl rfl)
  have place : Asks Keeps (createCast .bitCast addr .ptr) fun place => place.type = .ptr := by
    rw [createCast, if_neg (by rw [isAddr]; decide), createOp]
    exact .create ⟨rfl, .inr (.inr ⟨addr, rfl, by rw [isAddr]; rfl⟩)⟩
  refine (vector.keeps createCast_monotone).bind fun vector isVector => place.bind fun place isPlace => ?_
  exact ((createExtractElement_types isVector).keeps createExtractElement_monotone).bind fun result isResult =>
    .pure ⟨isResult, isPlace⟩

theorem runCode_pure {α : Type} {value : α} : runCode floats space (pure value) setting = some (value, setting) := by
  have ran : (pure value : Emit α) setting.straight = .ok (value, setting.straight) := rfl
  rw [runCode_ok ran, List.drop_length, executeAll, Option.map_some]

/-- The lane and the address, as an integer that is taken for a pointer. -/
theorem storedLane_run {lanes width : Nat} (isV : IsV128 space setting vec v)
    (isAddr : IsInt space setting addr (32, base)) (inside : lane < lanes) (small : lanes < 2 ^ 64) :
    ∃ operands setting', runCode floats space (storedLane vec addr (.vector lanes (.int width)) lane) setting =
        some (operands, setting') ∧ Later setting setting' ∧
      Holds space setting' operands.1 (.int width) [some (laneAt width v lane)] ∧
      Holds space setting' operands.2 .ptr [some base] := by
  have appends : ∀ vector, Appends (createCast .bitCast addr .ptr >>= fun place =>
      createExtractElement vector lane >>= fun result => (pure (result, place) : Emit (Value × Value))) := fun vector =>
    (createCast_quiet ..).appends.bind fun place => (createExtractElement_quiet ..).appends.bind fun result =>
      (quiet_pure _).appends
  obtain ⟨vector, first, ranVector, later1, isVector⟩ : Computes floats space setting _ _ _ :=
    bitCast_computes isV (.vector lanes (.int width))
  have isAddr' := isAddr.holds.later later1
  have casts : Computes floats space first (createCast .bitCast addr .ptr) .ptr
      (some (CastOp.datum floats .bitCast i32Type .ptr [some base])) := createCast_computes isAddr' (by decide)
  obtain ⟨place, second, ranPlace, later2, isPlace⟩ := casts
  have extracts : Computes floats space second (createExtractElement vector lane) (.int width) _ :=
    createExtractElement_computes (isVector.later later2) (by omega)
  obtain ⟨result, third, ranResult, later3, isResult⟩ := extracts
  refine ⟨(result, place), third, ?_, (later1.trans later2).trans later3, ?_, ?_⟩
  · rw [storedLane, runCode_bind (createCast_quiet ..).appends appends, ranVector, Option.bind_some,
      runCode_bind (createCast_quiet ..).appends fun place => (createExtractElement_quiet ..).appends.bind fun result =>
        (quiet_pure _).appends, ranPlace, Option.bind_some,
      runCode_bind (createExtractElement_quiet ..).appends fun result => (quiet_pure _).appends, ranResult,
      Option.bind_some, runCode_pure]
  · have found : (Datum.ofBits (.vector lanes (.int width)) v)[lane]?.join = some (laneAt width v lane) := by
      rw [Datum.ofBits_ofLanes]
      exact congrArg Option.join (Datum.ofLanes_getElem? inside)
    rw [found] at isResult
    exact isResult
  · have regrouped : CastOp.datum floats .bitCast i32Type .ptr [some base] = [some base] := by
      have kept : Datum.bits? i32Type (Datum.ofBits i32Type base) = some base := Datum.bits?_ofBits isAddr.small
      rw [Datum.ofBits_int isAddr.small] at kept
      simp only [CastOp.datum, kept]
      exact congrArg (List.map some) (unpack_one isAddr.small)
    rw [regrouped] at isPlace
    exact isPlace.later later3

/-- What is left of the visit stores the lane at the address that was popped. -/
theorem visitSimdStoreLane_folded (lawful : folder.Lawful floats space) (older : setting.Older rest)
    (stack : setting.straight.stack = vec :: addr :: rest) (isV : IsV128 space setting vec v)
    (isAddr : IsInt space setting addr (32, base)) (inside : lane < opcode.type.lanes) :
    if space.Accessible (.int opcode.type.laneBits) base then
      ∃ setting', runCode floats space (foldConstants folder (visitSimdStoreLane opcode lane)) setting =
          some ((), setting') ∧
        setting'.machine.bytes = setting.machine.bytes.write base (opcode.type.laneBits / 8)
          (laneAt opcode.type.laneBits v lane)
    else runCode floats space (foldConstants folder (visitSimdStoreLane opcode lane)) setting = none := by
  obtain ⟨lanes, width, isType, size, bytes, _, _, small⟩ := opcode.type_vector
  rw [isType] at inside size ⊢
  have pushes := @visitSimdStoreLane_pushes vec addr rest lane opcode setting.straight stack
  rw [isType] at pushes
  obtain ⟨operands, setting', ran, later, isResult, isPlace⟩ : ∃ operands setting',
      runCode floats space (storedLane vec addr (.vector lanes (.int width)) lane) (setting.withStack rest) = _ ∧ _ ∧ _ ∧ _ :=
    storedLane_run (isV.popped rest) ⟨isAddr.holds.stack rest, isAddr.small⟩ inside small
  have keeps := @storedLane_keeps space setting vec addr lane v lanes width isV isAddr.holds.type size
  obtain ⟨ranOperands, machine, executes, tracks⟩ := runCode_folded lawful keeps ran
  have reaches : Reaches setting.straight setting'.straight :=
    ⟨(keeps.emits.quiet.appends.run ranOperands).1, (keeps.emits.quiet.appends.run ranOperands).2⟩
  obtain ⟨standsResult, _⟩ := foldedValue_datum tracks reaches isResult (by simp)
  obtain ⟨standsPlace, _⟩ := foldedValue_datum tracks reaches isPlace (by simp)
  obtain ⟨stored, after, ranStore⟩ :
      ∃ stored after, createStore operands.1 operands.2 setting'.straight = .ok (stored, after) :=
    ⟨_, _, rfl⟩
  have ranWhole : createStoreLane vec addr (.vector lanes (.int width)) lane (setting.withStack rest).straight =
      .ok (stored, after) := by
    rw [createStoreLane_eq]
    exact (bind_run_ok ranOperands).trans ranStore
  have whole : runCode floats space (foldConstants folder (visitSimdStoreLane opcode lane)) setting = _ :=
    pushes.runCode_folded (createStoreLane_quiet ..) older ranWhole
  -- a store is never folded
  rcases create_folded reaches ranStore with ⟨key, made, folds, _⟩ | ⟨_, _, code⟩
  · cases lawful.pure_ folds
  rw [code, executeAll_append, executes, Option.bind_some] at whole
  have stand : ([operands.1, operands.2].map (foldedValue folder setting.straight setting'.straight)).mapM
      (Value.datum space machine) = some [[some (laneAt width v lane)], [some base]] := by
    simp [standsResult, standsPlace]
  have isValue : (foldedValue folder setting.straight setting'.straight operands.1).type = .int width :=
    foldedValue_type.trans isResult.type
  have isBits : Datum.bits? (foldedValue folder setting.straight setting'.straight operands.1).type
      [some (laneAt width v lane)] = some (laneAt width v lane) := by
    rw [isValue, ← Datum.ofBits_int laneAt_lt]
    exact Datum.bits?_ofBits (by rw [Ty.size_int]; exact laneAt_lt)
  have stores : ∀ id, Plain.execute floats space machine id
      ((Plain.op (Operation.store) .void [operands.1, operands.2]).mapOperands
        (foldedValue folder setting.straight setting'.straight)) = _ := fun id => Plain.execute_store stand isBits
  rw [isValue, bytes, tracks.bytes, later.bytes] at stores
  rw [executeAll, stores] at whole
  show if space.Accessible (.int width) base then _ else _
  by_cases accessible : space.Accessible (.int width) base
  · rw [if_pos accessible] at whole ⊢
    exact ⟨_, whole, rfl⟩
  · rw [if_neg accessible] at whole ⊢
    exact whole

/-- The code is accepted where the address is null. -/
theorem visitSimdStoreLane_wellTyped (lawful : folder.Lawful floats space)
    (stack : setting.straight.stack = vec :: addr :: rest) (isV : IsV128 space setting vec v)
    (isAddr : IsInt space setting addr (32, base)) :
    WellTyped (foldConstants folder (visitSimdStoreLane opcode lane)) setting.straight ↔ folder.isNull addr = true := by
  obtain ⟨lanes, width, isType, size, _⟩ := opcode.type_vector
  have pushes := @visitSimdStoreLane_pushes vec addr rest lane opcode setting.straight stack
  rw [isType] at pushes size
  have reaches : Reaches setting.straight (setting.withStack rest).straight := ⟨rfl, List.prefix_refl _⟩
  have vectorTypes : Types (createCast .bitCast vec (.vector lanes (.int width))) (.vector lanes (.int width)) True :=
    bitCast_types (isV.size.trans size.symm) isV.scalar (.inl rfl)
  obtain ⟨vector, first, ranVector, _⟩ := vectorTypes.runs (setting.withStack rest).straight
  have isVector := (vectorTypes.emits.run ranVector).2
  have toFirst := reaches.trans (vectorTypes.emits.quiet.appends.reaches ranVector)
  obtain ⟨place, second, ranPlace⟩ : ∃ place second,
      Visit.create (.op (.cast .bitCast) .ptr [addr]) first = .ok (place, second) := ⟨_, _, rfl⟩
  have toPlace := (create_emits _).quiet.appends.reaches ranPlace
  have resultTypes : Types (createExtractElement vector lane) (.int width) True := createExtractElement_types isVector
  obtain ⟨result, third, ranResult, _⟩ := resultTypes.runs second
  have toResult := resultTypes.emits.quiet.appends.reaches ranResult
  obtain ⟨stored, last, ranStore⟩ : ∃ stored last, createStore result place third = .ok (stored, last) := ⟨_, _, rfl⟩
  have toStore := (createStore_quiet ..).appends.reaches ranStore
  have ran : createStoreLane vec addr (.vector lanes (.int width)) lane (setting.withStack rest).straight =
      .ok (stored, last) := by
    have different : addr.type ≠ .ptr := by
      rw [isAddr.holds.type]
      exact Ty.noConfusion
    have casts : createCast .bitCast addr .ptr first = .ok (place, second) := by
      rw [createCast, if_neg different]
      exact ranPlace
    exact (bind_run_ok ranVector).trans ((bind_run_ok casts).trans ((bind_run_ok ranResult).trans ranStore))
  have folded : foldedValue folder setting.straight first addr = addr := foldedValue_older isAddr.holds.older
  have illTyped : IllTypedCast .bitCast addr.type .ptr := .inr ⟨rfl, by rw [isAddr.holds.type]; rfl, rfl⟩
  have rejected : Plain.wellTyped (.op (.cast .bitCast) .ptr [addr]) = false := by
    simp [Plain.wellTyped, Operation.wellTyped, CastOp.accepts, isAddr.holds.type, Ty.scalar, Ty.isInt, Ty.isFloat]
  have isResult := (resultTypes.emits.run ranResult).2
  have isPlace := ((create_emits _).run ranPlace).2
  have typed : Plain.wellTyped (.op .store .void [result, place]) = true := by
    simp [Plain.wellTyped, Operation.wellTyped, isResult, isPlace, Plain.type]
  have accepted : FoldsAccepted folder setting.straight last ↔ folder.fold (.op (.cast .bitCast) .ptr [addr]) ≠ none := by
    rw [create_accepted_iff ((toFirst.trans toPlace).trans toResult) ranStore, typed,
      resultTypes.accepted_iff (toFirst.trans toPlace) ranResult, create_accepted_iff toFirst ranPlace, rejected,
      vectorTypes.accepted_iff reaches ranVector, Plain.mapOperands, List.map_singleton, folded]
    have none_ : FoldsAccepted folder setting.straight (setting.withStack rest).straight := .none rfl
    simp [none_]
  have whole : WellTyped (foldConstants folder (visitSimdStoreLane opcode lane)) setting.straight ↔
      FoldsAccepted folder setting.straight last := by
    rw [pushes.wellTyped_iff (createStoreLane_quiet ..)]
    constructor
    · rintro ⟨value, after, ran', accepted⟩
      cases ran.symm.trans ran'
      exact accepted
    · exact fun accepted => ⟨stored, last, ran, accepted⟩
  rw [whole, accepted]
  constructor
  · intro folds
    obtain ⟨made, folds⟩ := Option.ne_none_iff_exists'.mp folds
    exact lawful.onlyNull illTyped folds isAddr.holds.datum (by simp)
  · intro null folds
    obtain ⟨key, casts, _⟩ : ∃ key, folder.fold (.op (.cast .bitCast) .ptr [addr]) = some (key, _) ∧ _ :=
      lawful.nullCast (.inr (.inr rfl)) null
    cases casts.symm.trans folds

theorem Holds.withBytes {bytes : Bytes} {value : Value} {type : Ty} {datum : Datum}
    (holds : Holds space setting value type datum) : Holds space (setting.withBytes bytes) value type datum where
  type := holds.type
  datum := by
    have known := holds.datum
    cases value <;> exact known
  older := holds.older

/-- Only a store that starts at its address replaces the bytes there and no others, if all bytes
may differ from those of the lane. -/
theorem write_replaced_iff {address count value : Nat} (some_ : 0 < count) (above : base ≤ address) :
    (∀ bytes : Bytes, Replaced bytes (bytes.write base count value) address count (byteOf value)) ↔ base = address := by
  constructor
  · intro replaced
    by_contra different
    have other := (replaced fun _ => byteOf value 0 + 1).outside base (.inl (by omega))
    have written : (Bytes.write (fun _ => byteOf value 0 + 1) base count value) (base + 0) = byteOf value 0 :=
      Bytes.write_replaced.inside 0 some_
    rw [Nat.add_zero, other] at written
    exact absurd written (by simp)
  · rintro rfl bytes
    exact Bytes.write_replaced

theorem IsInt.isNull_zero (isAddr : IsInt space setting addr (32, base)) (lawful : folder.Lawful floats space)
    (null : folder.isNull addr = true) : base = 0 := by
  have zeros := isAddr.holds.datum.symm.trans (lawful.null null).2
  rw [isAddr.holds.type] at zeros
  cases zeros
  rfl

/-- A store of a lane is right where its address is the null constant and the memory starts
at address 0, without an offset. -/
theorem visitSimdStoreLane_iff (lawful : folder.Lawful floats space) (older : setting.Older rest)
    (stack : setting.straight.stack = vec :: addr :: rest) (isV : IsV128 space setting vec v)
    (isAddr : IsInt space setting addr (32, base)) (inside : lane < opcode.type.lanes)
    (contained : base + offset + opcode.type.laneBits / 8 ≤ space.size) :
    StoresLane floats space (foldConstants folder (visitSimdStoreLane opcode lane)) setting opcode.type lane v
      (space.base + base + offset) ↔ folder.isNull addr = true ∧ space.base = 0 ∧ offset = 0 := by
  have some_ : 0 < opcode.type.laneBits / 8 := by
    obtain ⟨_, _, isType, _, _, _, positive, _⟩ := opcode.type_vector
    rw [isType]
    exact positive
  have accepted : WellTyped (foldConstants folder (visitSimdStoreLane opcode lane)) setting.straight ↔ _ :=
    visitSimdStoreLane_wellTyped lawful stack isV isAddr
  have run : ∀ bytes, if space.Accessible (.int opcode.type.laneBits) base then
      ∃ setting', runCode floats space (foldConstants folder (visitSimdStoreLane opcode lane)) (setting.withBytes bytes) =
          some ((), setting') ∧
        setting'.machine.bytes = bytes.write base (opcode.type.laneBits / 8) (laneAt opcode.type.laneBits v lane)
    else runCode floats space (foldConstants folder (visitSimdStoreLane opcode lane)) (setting.withBytes bytes) = none := by
    intro bytes
    have older : (setting.withBytes bytes).Older rest := older
    exact visitSimdStoreLane_folded lawful older stack ⟨isV.size, isV.scalar, isV.holds.withBytes, isV.small⟩
      ⟨isAddr.holds.withBytes, isAddr.small⟩ inside
  constructor
  · rintro ⟨typed, stores⟩
    have null := accepted.mp typed
    have zero := isAddr.isNull_zero lawful null
    have replaced : ∀ bytes : Bytes, Replaced bytes
        (bytes.write base (opcode.type.laneBits / 8) (laneAt opcode.type.laneBits v lane))
        (space.base + base + offset) (opcode.type.laneBits / 8) (byteOf (laneAt opcode.type.laneBits v lane)) := by
      intro bytes
      obtain ⟨last, ran, replaced⟩ := stores bytes
      have known := run bytes
      split at known
      · obtain ⟨last', ran', written⟩ := known
        cases ran.symm.trans ran'
        rwa [written] at replaced
      · cases ran.symm.trans known
    have here := (write_replaced_iff some_ (by omega)).mp replaced
    exact ⟨null, by omega, by omega⟩
  · rintro ⟨null, start, rfl⟩
    have zero := isAddr.isNull_zero lawful null
    subst zero
    have accessible : space.Accessible (.int opcode.type.laneBits) 0 := by
      refine ⟨⟨Nat.le_of_eq start, ?_⟩, Nat.dvd_zero _⟩
      rw [Ty.bytes, Ty.size_int]
      omega
    refine ⟨accepted.mpr null, fun bytes => ?_⟩
    have known := run bytes
    rw [if_pos accessible] at known
    obtain ⟨last, ran, written⟩ := known
    refine ⟨last, ran, ?_⟩
    rw [written, start]
    exact Bytes.write_replaced

/-- No load of a lane is right, and a store is where its address is the null constant and the
memory starts at address 0, without an offset. -/
theorem visitInstr_laneMemory_iff (environment : Environment) (lawful : folder.Lawful floats space) :
    (∀ (opcode : LoadLaneOpcode) {setting : Setting} {vec addr : Value} {rest : List Value} {offset lane v base : Nat},
      setting.straight.stack = vec :: addr :: rest → IsV128 space setting vec v →
      IsInt space setting addr (32, base) → lane < opcode.type.lanes →
      base + offset + opcode.type.laneBits / 8 ≤ space.size →
      ¬LoadsLane floats space (foldConstants folder (visitInstr environment (.simdLoadLane opcode offset lane))) setting
        rest opcode.type lane v (space.base + base + offset)) ∧
    (∀ (opcode : StoreLaneOpcode) {setting : Setting} {vec addr : Value} {rest : List Value} {offset lane v base : Nat},
      setting.straight.stack = vec :: addr :: rest → setting.Older rest → IsV128 space setting vec v →
      IsInt space setting addr (32, base) → lane < opcode.type.lanes →
      base + offset + opcode.type.laneBits / 8 ≤ space.size →
      (StoresLane floats space (foldConstants folder (visitInstr environment (.simdStoreLane opcode offset lane))) setting
        opcode.type lane v (space.base + base + offset) ↔
          folder.isNull addr = true ∧ space.base = 0 ∧ offset = 0)) := by
  constructor
  · intro opcode setting vec addr rest offset lane v base stack _ _ _ _ loads
    exact visitSimdLoadLane_rejected stack loads.typed
  · intro opcode setting vec addr rest offset lane v base stack older isV isAddr inside contained
    exact visitSimdStoreLane_iff lawful older stack isV isAddr inside contained

end Memory

/-- A byte is stored at the null address. -/
theorem visitInstr_laneMemory_iff_null :
    ¬LoadsLane (.choosing true) ⟨0, 65536⟩
        (foldConstants (.eager (.choosing true) ⟨0, 65536⟩) (visitInstr onePage (.simdLoadLane .v128Load32Lane 4 1)))
        (.start [.int 128 5, .int 32 8]) [] i32x4Type 1 5 12 ∧
      StoresLane (.choosing true) ⟨0, 65536⟩
        (foldConstants (.eager (.choosing true) ⟨0, 65536⟩) (visitInstr onePage (.simdStoreLane .v128Store8Lane 0 3)))
        (.start [.int 128 5, .int 32 0]) i8x16Type 3 5 0 := by
  have lawful : (Folder.eager (.choosing true) ⟨0, 65536⟩).Lawful (.choosing true) ⟨0, 65536⟩ := Folder.eager_lawful
  have both := visitInstr_laneMemory_iff onePage lawful
  have isV : ∀ setting, IsV128 ⟨0, 65536⟩ setting (.int 128 5) 5 := fun _ => isV128_const (by decide)
  have isAddr : ∀ setting, IsInt ⟨0, 65536⟩ setting (.int 32 8) (32, 8) := fun _ => isInt_const (by decide)
  have isNull : ∀ setting, IsInt ⟨0, 65536⟩ setting (.int 32 0) (32, 0) := fun _ => isInt_const (by decide)
  have zero : StoresLane (.choosing true) ⟨0, 65536⟩
      (foldConstants (.eager (.choosing true) ⟨0, 65536⟩) (visitInstr onePage (.simdStoreLane .v128Store8Lane 0 3)))
      (.start [.int 128 5, .int 32 0]) i8x16Type 3 5 0 ↔
        (Folder.eager (.choosing true) ⟨0, 65536⟩).isNull (.int 32 0) = true ∧ 0 = 0 ∧ 0 = 0 :=
    both.2 .v128Store8Lane rfl .none (isV _) (isNull _) (by decide) (by decide)
  exact ⟨both.1 .v128Load32Lane rfl (isV _) (isAddr _) (by decide) (by decide), zero.mpr (by decide)⟩

/-- A lane of 32 bits stored at 12. -/
theorem visitInstr_storeLane_rejected :
    ¬StoresLane (.choosing true) ⟨0, 65536⟩
      (foldConstants (.eager (.choosing true) ⟨0, 65536⟩) (visitInstr onePage (.simdStoreLane .v128Store32Lane 4 1)))
      (.start [.int 128 5, .int 32 8]) i32x4Type 1 5 12 := by
  have isV : IsV128 ⟨0, 65536⟩ (.start [.int 128 5, .int 32 8]) (.int 128 5) 5 := isV128_const (by decide)
  have isAddr : IsInt ⟨0, 65536⟩ (.start [.int 128 5, .int 32 8]) (.int 32 8) (32, 8) := isInt_const (by decide)
  intro stores
  have null := (visitSimdStoreLane_wellTyped Folder.eager_lawful rfl isV isAddr).mp stores.typed
  exact absurd null (by decide)

end WasmToLlvm.Instruction
