import WasmToLlvm.Instruction.Address
import WasmToLlvm.Instruction.Vector
import WasmToLlvm.Wasm.Memory

/-!
# Loads and stores

Each access is that of WebAssembly where its address has the alignment that the type of
the access demands.
-/

set_option autoImplicit false

namespace WasmToLlvm.Instruction

open Llvm Wasm Block Library

/-- The memory is the variable, at address 0 where addresses are converted integers. -/
structure Placed (environment : Environment) (space : Space) : Prop where
  memory : environment.mems[0]? = some space.size
  start : memoryBase environment space = space.base
  fits : space.base + space.size ≤ 2 ^ 32

/-- The visit takes its operands from the stack down to `rest` and leaves the memory with
these bytes. -/
def Writes (floats : Floats) (space : Space) (setting : Setting) (visit : Emit Unit) (rest : List Value) :
    Option Bytes → Prop
  | none => runCode floats space visit setting = none
  | some bytes => ∃ setting', runCode floats space visit setting = some ((), setting') ∧
      setting'.straight.stack = rest ∧ setting'.machine.bytes = bytes

/-! ## What the opcodes mean -/

def LoadOpcode.kind : LoadOpcode → LoadKind
  | .i32Load | .f32Load => .whole 32
  | .i64Load | .f64Load => .whole 64
  | .i32Load8S => .extend true 1 8 32
  | .i32Load8U => .extend false 1 8 32
  | .i32Load16S => .extend true 1 16 32
  | .i32Load16U => .extend false 1 16 32
  | .i64Load8S => .extend true 1 8 64
  | .i64Load8U => .extend false 1 8 64
  | .i64Load16S => .extend true 1 16 64
  | .i64Load16U => .extend false 1 16 64
  | .i64Load32S => .extend true 1 32 64
  | .i64Load32U => .extend false 1 32 64
  | .v128Load => .whole 128
  | .v128Load8X8S => .extend true 8 8 16
  | .v128Load8X8U => .extend false 8 8 16
  | .v128Load16X4S => .extend true 4 16 32
  | .v128Load16X4U => .extend false 4 16 32
  | .v128Load32X2S => .extend true 2 32 64
  | .v128Load32X2U => .extend false 2 32 64
  | .v128Load8Splat => .splat 16 8
  | .v128Load16Splat => .splat 8 16
  | .v128Load32Splat => .splat 4 32
  | .v128Load64Splat => .splat 2 64
  | .v128Load32Zero => .zero 32 128
  | .v128Load64Zero => .zero 64 128

/-- The number of bytes that are stored. -/
def StoreOpcode.bytes : StoreOpcode → Nat
  | .i32Store8 | .i64Store8 => 1
  | .i32Store16 | .i64Store16 => 2
  | .i32Store | .f32Store | .i64Store32 => 4
  | .i64Store | .f64Store => 8
  | .v128Store => 16

/-- The types in which a value of a type of WebAssembly comes; a vector comes in any type of
128 bits. -/
def Represents (type : Ty) : ValType → Prop
  | .i32 => type = i32Type
  | .i64 => type = i64Type
  | .f32 => type = .float
  | .f64 => type = .double
  | .v128 => type.size = 128
  | _ => False

/-- The value stands for the bits of an operand. -/
structure IsStored (space : Space) (setting : Setting) (value : Value) (type : ValType) (bits : Nat) :
    Prop where
  type : Represents value.type type
  holds : Holds space setting value value.type (Datum.ofBits value.type bits)
  small : bits < 2 ^ value.type.size

/-- The type of the value that `visitStoreInst` stores. -/
def StoreOpcode.storedType (opcode : StoreOpcode) (type : Ty) : Ty :=
  match opcode with
  | .i32Store | .i64Store | .f32Store | .f64Store | .v128Store => type
  | .i32Store8 | .i64Store8 => i8Type
  | .i32Store16 | .i64Store16 => i16Type
  | .i64Store32 => i32Type

section Accesses

variable {floats : Floats} {space : Space} {setting : Setting} {environment : Environment}
  {top value address : Value} {rest : List Value} {base offset bits place : Nat} {type type' : Ty}

/-! ## Loaded values -/

/-- The code gives the bits of a load of this kind. -/
def Gives (floats : Floats) (space : Space) (setting : Setting) (code : Emit Value) (kind : LoadKind)
    (bits : Nat) : Prop :=
  ∃ type datum, type.size = kind.width ∧ datum.bits? type = some (kind.value bits) ∧
    Computes floats space setting code type (some datum)

theorem gives_whole (holds : Holds space setting value type (Datum.ofBits type bits))
    (small : bits < 2 ^ type.size) :
    Gives floats space setting (pure value) (.whole type.size) bits :=
  ⟨type, _, rfl, Datum.bits?_ofBits small, .done holds⟩

theorem bits?_map_some (bits : List Nat) :
    Datum.bits? type (bits.map some) = some (pack type.laneBits bits) := by
  rw [Datum.bits?, mapM_some, Option.map_some]

/-- An extension of each lane. -/
theorem gives_extend (sign : Bool) (holds : Holds space setting value type (Datum.ofBits type bits))
    (lanes : type.lanes = type'.lanes) (wider : type.laneBits < type'.laneBits) :
    Gives floats space setting (createCast (if sign then .sext else .zext) value type')
      (.extend sign type.lanes type.laneBits type'.laneBits) bits := by
  have different : type ≠ type' := fun same => absurd (same ▸ wider) (Nat.lt_irrefl _)
  have extended : CastOp.datum floats (if sign then .sext else .zext) type type' (Datum.ofBits type bits) =
      ((unpack type.laneBits type.lanes bits).map
        (LoadKind.extendLane sign type.laneBits type'.laneBits)).map some := by
    rw [Datum.ofBits]
    cases sign with
    | false => simp [CastOp.datum, CastOp.lane, LoadKind.extendLane]
    | true =>
        simp only [if_pos, CastOp.datum, List.map_map]
        apply List.map_congr_left
        intro lane member
        have small := unpack_lt member
        simp only [Function.comp_apply, Option.bind_some, CastOp.lane, LoadKind.extendLane, if_pos,
          toNat_signExtend_ofNat small (Nat.le_of_lt wider)]
  refine ⟨type', _, by rw [Ty.size, LoadKind.width, lanes], ?_, createCast_computes holds different⟩
  rw [extended, bits?_map_some]
  rfl

theorem gives_splat {count width : Nat} (some_ : 0 < count)
    (holds : Holds space setting value (.int width) [some bits]) :
    Gives floats space setting (createVectorSplat count value) (.splat count width) bits := by
  refine ⟨.vector count (.int width), _, rfl, ?_, createVectorSplat_computes some_ holds⟩
  have lanes : List.replicate count (some bits) = (List.replicate count bits).map some :=
    List.map_replicate.symm
  rw [lanes, bits?_map_some]
  rfl

theorem pack_zeros {width count : Nat} : pack width (List.replicate count 0) = 0 := by
  induction count with
  | zero => rfl
  | succ count ih => rw [List.replicate_succ, pack, ih, Nat.mul_zero]

/-- The other lanes are those of the null vector. -/
theorem gives_zero {count width : Nat} (holds : Holds space setting value (.int width) [some bits]) :
    Gives floats space setting
      (createInsertElement (.null (.vector (count + 1) (.int width))) value 0)
      (.zero width ((count + 1) * width)) bits := by
  have null : Holds space setting (.null (.vector (count + 1) (.int width)))
      (.vector (count + 1) (.int width)) (List.replicate (count + 1) (some 0)) :=
    .constant rfl (Value.datum_null ..) fun _ _ isInst => by cases isInst
  have inserted : Computes floats space setting
      (createInsertElement (.null (.vector (count + 1) (.int width))) value 0) _ _ :=
    createInsertElement_computes null holds (by rw [List.length_replicate]; exact Nat.succ_pos _) (by decide)
  refine ⟨_, _, rfl, ?_, inserted⟩
  have lanes : (List.replicate (count + 1) (some 0)).set 0 (some bits) =
      (bits :: List.replicate count 0).map some := by
    simp [List.replicate_succ]
  rw [lanes, bits?_map_some, pack, pack_zeros]
  rfl

theorem loadExtension_gives {opcode : LoadOpcode}
    (holds : Holds space setting value opcode.targetType (Datum.ofBits opcode.targetType bits))
    (small : bits < 2 ^ opcode.targetType.size) :
    Gives floats space setting (loadExtension opcode value) opcode.kind bits := by
  have scalar : ∀ width, opcode.targetType = .int width →
      Holds space setting value (.int width) [some bits] := by
    intro width isInt
    rw [isInt] at holds small
    rwa [Datum.ofBits_int] at holds
    rwa [Ty.size_int] at small
  unfold loadExtension
  cases opcode with
  | i32Load | i64Load | f32Load | f64Load | v128Load => exact gives_whole holds small
  | i32Load8S | i32Load16S | i64Load8S | i64Load16S | i64Load32S | v128Load8X8S | v128Load16X4S
  | v128Load32X2S => exact gives_extend true holds rfl (by decide)
  | i32Load8U | i32Load16U | i64Load8U | i64Load16U | i64Load32U | v128Load8X8U | v128Load16X4U
  | v128Load32X2U => exact gives_extend false holds rfl (by decide)
  | v128Load8Splat | v128Load16Splat | v128Load32Splat | v128Load64Splat =>
      exact gives_splat (by decide) (scalar _ rfl)
  | v128Load32Zero | v128Load64Zero => exact gives_zero (scalar _ rfl)

/-! ## Runs of loads -/

theorem formedAddress_inside (placed : Placed environment space) {count : Nat} (some_ : 0 < count)
    (inside : base + offset + count ≤ space.size) :
    formedAddress environment space base offset = space.base + base + offset := by
  have fits := placed.fits
  rw [formedAddress, placed.start, Nat.mod_eq_of_lt (a := base + offset) (by omega),
    Nat.mod_eq_of_lt (by omega), Nat.add_assoc]

/-- A visit that starts with the address of an access. -/
theorem runCode_convertStackAddr {next : Value → Emit Unit} (placed : Placed environment space)
    (stack : setting.straight.stack = top :: rest) (isBase : IsInt space setting top (32, base))
    (appends : ∀ value, Appends (next value)) :
    ∃ value setting', runCode floats space (convertStackAddr environment offset >>= next) setting =
        runCode floats space (next value) setting' ∧ Later (setting.withStack rest) setting' ∧
      Holds space setting' value .ptr [some (formedAddress environment space base offset)] := by
  have runs : ∃ value setting', runCode floats space (convertStackAddr environment offset) setting =
      some (value, setting') ∧ Later (setting.withStack rest) setting' ∧
      Holds space setting' value .ptr [some (formedAddress environment space base offset)] :=
    convertStackAddr_runs placed.memory stack isBase
  obtain ⟨value, setting', ran, later, holds⟩ := runs
  refine ⟨value, setting', ?_, later, holds⟩
  rw [runCode_bind convertStackAddr_appends appends, ran, Option.bind_some]

theorem LoadOpcode.targetType_size (opcode : LoadOpcode) :
    opcode.targetType.size = 8 * opcode.kind.bytes := by
  cases opcode <;> rfl

theorem LoadOpcode.targetType_bytes (opcode : LoadOpcode) :
    opcode.targetType.bytes = opcode.kind.bytes := by
  cases opcode <;> rfl

theorem LoadOpcode.bytes_positive (opcode : LoadOpcode) : 0 < opcode.kind.bytes := by
  cases opcode <;> decide

/-- The load is defined and gives what it gives in WebAssembly. -/
def Loads (floats : Floats) (space : Space) (setting : Setting) (visit : Emit Unit) (rest : List Value)
    (kind : LoadKind) (address : Nat) : Prop :=
  ∃ type datum, type.size = kind.width ∧
    datum.bits? type = some (kind.value (setting.machine.bytes.read address kind.bytes)) ∧
    Leaves floats space setting visit rest type (some datum)

/-- The code of a load behind its address. -/
theorem loadCode_gives {opcode : LoadOpcode} (isAddress : Holds space setting address .ptr [some place])
    (inside : space.Contains place opcode.kind.bytes) (aligned : opcode.targetType.abiAlign ∣ place) :
    Gives floats space setting (createLoad opcode.targetType address >>= loadExtension opcode) opcode.kind
      (setting.machine.bytes.read place opcode.kind.bytes) := by
  have accessible : space.Accessible opcode.targetType place :=
    ⟨opcode.targetType_bytes ▸ inside, aligned⟩
  have loaded : Computes floats space setting (createLoad opcode.targetType address) opcode.targetType _ :=
    createLoad_computes isAddress
  rw [if_pos accessible, opcode.targetType_bytes] at loaded
  obtain ⟨value, setting', ran, later, holds⟩ := loaded
  have small : setting.machine.bytes.read place opcode.kind.bytes < 2 ^ opcode.targetType.size := by
    rw [opcode.targetType_size]
    exact Bytes.read_lt
  have gives : Gives floats space setting' (loadExtension opcode value) opcode.kind _ :=
    loadExtension_gives holds small
  obtain ⟨type, datum, width, bits, computes⟩ := gives
  exact ⟨type, datum, width, bits, .after ran later (createLoad_quiet ..) (fun _ => loadExtension_quiet ..)
    computes⟩

theorem visitLoadInst_loads {opcode : LoadOpcode} (placed : Placed environment space)
    (stack : setting.straight.stack = top :: rest) (isBase : IsInt space setting top (32, base))
    (inside : base + offset + opcode.kind.bytes ≤ space.size) :
    Loads floats space setting (visitLoadInst environment opcode offset) rest opcode.kind
      (space.base + base + offset) ↔ opcode.targetType.abiAlign ∣ space.base + base + offset := by
  have appends : ∀ address, Appends (createLoad opcode.targetType address >>= fun result =>
      loadExtension opcode result >>= Visit.pushStack : Emit Unit) := fun address =>
    (createLoad_quiet ..).appends.bind fun result =>
      (loadExtension_quiet ..).appends.bind pushStack_appends
  have runs : ∃ address setting', runCode floats space (visitLoadInst environment opcode offset) setting = _ ∧
      Later (setting.withStack rest) setting' ∧ _ :=
    runCode_convertStackAddr placed stack isBase appends
  obtain ⟨address, setting', ran, later, isAddress⟩ := runs
  rw [formedAddress_inside placed opcode.bytes_positive inside] at isAddress
  have contained : space.Contains (space.base + base + offset) opcode.kind.bytes :=
    ⟨by omega, by omega⟩
  constructor
  · rintro ⟨type, datum, _, _, value, last, defined, _⟩
    by_contra misaligned
    have loaded : Computes floats space setting' (createLoad opcode.targetType address) opcode.targetType _ :=
      createLoad_computes isAddress
    rw [if_neg fun accessible => misaligned accessible.2] at loaded
    rw [ran, runCode_bind (createLoad_quiet ..).appends fun result =>
      (loadExtension_quiet ..).appends.bind pushStack_appends, loaded] at defined
    cases defined
  · intro aligned
    have gives : Gives floats space setting' _ opcode.kind _ := loadCode_gives isAddress contained aligned
    obtain ⟨type, datum, width, bits, computes⟩ := gives
    rw [← Setting.withStack_same later.stack] at computes
    have leaves := computes.leaves (quiet_bind (createLoad_quiet ..) fun _ => loadExtension_quiet ..)
    rw [bind_assoc, Setting.withStack_same later.stack] at leaves
    rw [later.bytes] at bits
    exact ⟨type, datum, width, bits, leaves.congr ran later.bytes⟩

/-! ## Runs of stores -/

theorem Writes.congr {setting' : Setting} {visit visit' : Emit Unit} {outcome : Option Bytes}
    (same : runCode floats space visit setting = runCode floats space visit' setting')
    (writes : Writes floats space setting' visit' rest outcome) :
    Writes floats space setting visit rest outcome := by
  cases outcome with
  | none => exact same.trans writes
  | some bytes =>
      obtain ⟨last, ran, left⟩ := writes
      exact ⟨last, same.trans ran, left⟩

/-- A visit leaves the memory with the same bytes whenever it runs. -/
theorem Writes.unique {visit : Emit Unit} {outcome outcome' : Option Bytes}
    (writes : Writes floats space setting visit rest outcome)
    (writes' : Writes floats space setting visit rest outcome') : outcome = outcome' := by
  cases outcome with
  | none =>
      cases outcome' with
      | none => rfl
      | some bytes =>
          obtain ⟨last, ran, _⟩ := writes'
          exact absurd (ran.symm.trans writes) (by simp)
  | some bytes =>
      obtain ⟨last, ran, _, is⟩ := writes
      cases outcome' with
      | none => exact absurd (ran.symm.trans writes') (by simp)
      | some bytes' =>
          obtain ⟨last', ran', _, is'⟩ := writes'
          cases ran.symm.trans ran'
          rw [← is, is']

/-- An instruction that only changes memory. -/
theorem create_writes {plain : Plain Operation} {outcome : Option Bytes}
    (executes : plain.execute floats space setting.machine setting.nextId =
      outcome.map fun bytes => { setting.machine with bytes := bytes }) :
    Writes floats space setting (Visit.create plain >>= fun _ => pure ()) setting.straight.stack outcome := by
  have ran : runCode floats space (Visit.create plain >>= fun _ => pure ()) setting = _ := runCode_ok rfl
  rw [List.drop_left, executeAll, executes] at ran
  cases outcome with
  | none => exact ran
  | some bytes => exact ⟨_, ran, rfl, rfl⟩

/-- A store leaves the bytes of its value, where its alignment allows the access. -/
theorem createStore_writes (holds : Holds space setting value type (Datum.ofBits type bits))
    (small : bits < 2 ^ type.size) (isAddress : Holds space setting address .ptr [some place]) :
    Writes floats space setting (createStore value address >>= fun _ => pure ()) setting.straight.stack
      (if space.Accessible type place then some (setting.machine.bytes.write place type.bytes bits)
      else none) := by
  apply create_writes
  have stand : [value, address].mapM (Value.datum space setting.machine) =
      some [Datum.ofBits type bits, [some place]] := by
    simp [holds.datum, isAddress.datum]
  have isBits : (Datum.ofBits type bits).bits? value.type = some bits := by
    rw [holds.type, Datum.bits?_ofBits small]
  rw [Plain.execute_store stand isBits, holds.type]
  split <;> rfl

theorem IsStored.later {setting' : Setting} {type : ValType} (isValue : IsStored space setting value type bits)
    (later : Later setting setting') : IsStored space setting' value type bits :=
  ⟨isValue.type, isValue.holds.later later, isValue.small⟩

theorem IsStored.popped {type : ValType} (isValue : IsStored space setting value type bits)
    (stack : List Value) : IsStored space (setting.withStack stack) value type bits :=
  ⟨isValue.type, isValue.holds.stack stack, isValue.small⟩

/-- The low bits of an integer. -/
theorem createCast_trunc_stored {width target : Nat} (isType : value.type = .int width)
    (holds : Holds space setting value value.type (Datum.ofBits value.type bits))
    (small : bits < 2 ^ value.type.size) (narrower : target < width) :
    Computes floats space setting (createCast .trunc value (.int target)) (.int target)
      (some (Datum.ofBits (.int target) (bits % 2 ^ target))) := by
  rw [isType] at holds small
  rw [Ty.size_int] at small
  rw [Datum.ofBits_int small] at holds
  rw [Datum.ofBits_int (Nat.mod_lt bits (Nat.two_pow_pos target))]
  exact createCast_computes holds fun same => absurd (Ty.int.inj same) (Nat.ne_of_gt narrower)

theorem storeConversion_computes {opcode : StoreOpcode}
    (isValue : IsStored space setting value opcode.valueType bits) :
    Computes floats space setting (storeConversion opcode value) (opcode.storedType value.type)
      (some (Datum.ofBits (opcode.storedType value.type) (bits % 2 ^ (opcode.storedType value.type).size))) := by
  obtain ⟨isType, holds, small⟩ := isValue
  unfold storeConversion
  cases opcode with
  | i32Store | i64Store | f32Store | f64Store | v128Store =>
      rw [StoreOpcode.storedType, Nat.mod_eq_of_lt small]
      exact .done holds
  | i32Store8 | i32Store16 | i64Store8 | i64Store16 | i64Store32 =>
      rw [StoreOpcode.storedType, Ty.size_int]
      exact createCast_trunc_stored isType holds small (by decide)

theorem StoreOpcode.storedType_size {opcode : StoreOpcode} (represents : Represents type opcode.valueType) :
    (opcode.storedType type).size = 8 * opcode.bytes := by
  cases opcode with
  | v128Store => exact represents
  | i32Store | i64Store | f32Store | f64Store =>
      cases represents
      rfl
  | i32Store8 | i32Store16 | i64Store8 | i64Store16 | i64Store32 => rfl

theorem StoreOpcode.bytes_positive (opcode : StoreOpcode) : 0 < opcode.bytes := by
  cases opcode <;> decide

/-- The store is defined and leaves the bytes of the value, which can be read back, and all
others as they are. -/
def Stores (floats : Floats) (space : Space) (setting : Setting) (visit : Emit Unit) (rest : List Value)
    (address count bits : Nat) : Prop :=
  ∃ bytes, Writes floats space setting visit rest (some bytes) ∧
    Replaced setting.machine.bytes bytes address count (byteOf bits) ∧
    bytes.read address count = bits % 2 ^ (8 * count)

/-- The code of a store behind its address. -/
theorem storeCode_writes {opcode : StoreOpcode} (isValue : IsStored space setting value opcode.valueType bits)
    (isAddress : Holds space setting address .ptr [some place]) (contained : space.Contains place opcode.bytes) :
    Writes floats space setting
      (storeConversion opcode value >>= fun stored => createStore stored address >>= fun _ => pure ())
      setting.straight.stack
      (if (opcode.storedType value.type).abiAlign ∣ place then
        some (setting.machine.bytes.write place opcode.bytes (bits % 2 ^ (8 * opcode.bytes)))
      else none) := by
  have size := StoreOpcode.storedType_size isValue.type
  have bytes : (opcode.storedType value.type).bytes = opcode.bytes := by
    rw [Ty.bytes, size, Nat.mul_div_cancel_left _ (by decide)]
  have converted : Computes floats space setting (storeConversion opcode value) _ _ :=
    storeConversion_computes isValue
  obtain ⟨stored, setting', ran, later, holds⟩ := converted
  have whole : runCode floats space (storeConversion opcode value >>= fun stored =>
      createStore stored address >>= fun _ => pure ()) setting =
      runCode floats space (createStore stored address >>= fun _ => pure ()) setting' := by
    rw [runCode_bind (storeConversion_quiet ..).appends fun stored =>
      (quiet_bind (createStore_quiet ..) fun _ => quiet_pure _).appends, ran, Option.bind_some]
  have writes : Writes floats space setting' _ _ _ :=
    createStore_writes holds (Nat.mod_lt _ (Nat.two_pow_pos _)) (isAddress.later later)
  rw [later.stack, later.bytes, bytes, size] at writes
  have accessible : space.Accessible (opcode.storedType value.type) place ↔
      (opcode.storedType value.type).abiAlign ∣ place :=
    ⟨fun both => both.2, fun aligned => ⟨bytes ▸ contained, aligned⟩⟩
  simp only [accessible] at writes
  exact writes.congr whole

theorem visitStoreInst_stores {opcode : StoreOpcode} (placed : Placed environment space)
    (stack : setting.straight.stack = value :: top :: rest)
    (isValue : IsStored space setting value opcode.valueType bits)
    (isBase : IsInt space setting top (32, base)) (inside : base + offset + opcode.bytes ≤ space.size) :
    Stores floats space setting (visitStoreInst environment opcode offset) rest (space.base + base + offset)
      opcode.bytes bits ↔ (opcode.storedType value.type).abiAlign ∣ space.base + base + offset := by
  have appends : ∀ value address, Appends (storeConversion opcode value >>= fun stored =>
      createStore stored address >>= fun _ => pure () : Emit Unit) := fun value address =>
    (quiet_bind (storeConversion_quiet ..) fun _ =>
      quiet_bind (createStore_quiet ..) fun _ => quiet_pure _).appends
  have popped : runCode floats space (visitStoreInst environment opcode offset) setting = _ :=
    runCode_popStack stack fun value => convertStackAddr_appends.bind (appends value)
  have runs : ∃ address setting', runCode floats space (convertStackAddr environment offset >>= fun address =>
      storeConversion opcode value >>= fun stored => createStore stored address >>= fun _ => pure ())
        (setting.withStack (top :: rest)) = _ ∧ Later _ setting' ∧ _ :=
    runCode_convertStackAddr placed rfl ⟨isBase.holds.stack _, isBase.small⟩ (appends value)
  obtain ⟨address, setting', ran, later, isAddress⟩ := runs
  rw [formedAddress_inside placed opcode.bytes_positive inside] at isAddress
  have contained : space.Contains (space.base + base + offset) opcode.bytes :=
    ⟨by omega, by omega⟩
  have writes : Writes floats space setting' _ _ _ :=
    storeCode_writes ((isValue.popped _).later later) isAddress contained
  rw [later.stack, later.bytes] at writes
  have left := writes.congr (popped.trans ran)
  constructor
  · rintro ⟨bytes, defined, _⟩
    by_contra misaligned
    rw [if_neg misaligned] at left
    cases left.unique defined
  · intro aligned
    rw [if_pos aligned] at left
    exact ⟨_, left, Bytes.write_mod_replaced, Bytes.write_mod_replaced.read⟩

/-- A load or store inside the memory is that of WebAssembly where the address is a multiple
of the alignment of the type that is loaded or stored. -/
theorem visitInstr_access_iff (placed : Placed environment space) :
    (∀ (opcode : LoadOpcode) (offset : Nat) {setting : Setting} {top : Value} {rest : List Value} {base : Nat},
      setting.straight.stack = top :: rest → IsInt space setting top (32, base) →
      base + offset + opcode.kind.bytes ≤ space.size →
      (Loads floats space setting (visitInstr environment (.load opcode offset)) rest opcode.kind
        (space.base + base + offset) ↔ opcode.targetType.abiAlign ∣ space.base + base + offset)) ∧
    (∀ (opcode : StoreOpcode) (offset : Nat) {setting : Setting} {value top : Value} {rest : List Value}
        {bits base : Nat},
      setting.straight.stack = value :: top :: rest →
      IsStored space setting value opcode.valueType bits → IsInt space setting top (32, base) →
      base + offset + opcode.bytes ≤ space.size →
      (Stores floats space setting (visitInstr environment (.store opcode offset)) rest
        (space.base + base + offset) opcode.bytes bits ↔
          (opcode.storedType value.type).abiAlign ∣ space.base + base + offset)) :=
  ⟨fun _ _ => visitLoadInst_loads placed, fun _ _ => visitStoreInst_stores placed⟩

end Accesses

theorem onePage_placed : Placed onePage ⟨0, 65536⟩ where
  memory := rfl
  start := rfl
  fits := by decide

theorem isStored_const {space : Space} {setting : Setting} {x : Nat} (small : x < 2 ^ 32) :
    IsStored space setting (.int 32 x) .i32 x where
  type := rfl
  holds := by
    rw [Value.type, Datum.ofBits_int small]
    exact (isInt_const small).holds
  small := small

theorem visitInstr_access_iff_const :
    (Loads (.choosing true) ⟨0, 65536⟩ (.start [.int 32 8]) (visitInstr onePage (.load .i32Load8S 5)) []
      (.extend true 1 8 32) 13 ↔ 1 ∣ 13) ∧
    (Stores (.choosing true) ⟨0, 65536⟩ (.start [.int 32 7, .int 32 8]) (visitInstr onePage (.store .i32Store 4))
      [] 12 4 7 ↔ 4 ∣ 12) := by
  have both := @visitInstr_access_iff (.choosing true) ⟨0, 65536⟩ onePage onePage_placed
  have isBase : ∀ setting, IsInt ⟨0, 65536⟩ setting (.int 32 8) (32, 8) := fun _ => isInt_const (by decide)
  have isValue : ∀ setting, IsStored ⟨0, 65536⟩ setting (.int 32 7) .i32 7 := fun _ => isStored_const (by decide)
  have loads := both.1 .i32Load8S 5 rfl (isBase (.start [.int 32 8])) (by decide)
  have stores := both.2 .i32Store 4 rfl (isValue (.start [.int 32 7, .int 32 8])) (isBase _) (by decide)
  exact ⟨loads, stores⟩

/-- `i32.load` of the bytes 1 to 4 is undefined. -/
theorem visitInstr_load_misaligned :
    ¬Loads (.choosing true) ⟨0, 65536⟩ (.start [.int 32 1]) (visitInstr onePage (.load .i32Load 0)) []
      (.whole 32) 1 := by
  have isBase : IsInt ⟨0, 65536⟩ (.start [.int 32 1]) (.int 32 1) (32, 1) := isInt_const (by decide)
  have loads : Loads (.choosing true) ⟨0, 65536⟩ (.start [.int 32 1]) (visitLoadInst onePage .i32Load 0) []
      (.whole 32) 1 ↔ 4 ∣ 1 := visitLoadInst_loads onePage_placed rfl isBase (by decide)
  rw [visitInstr, loads]
  decide

end WasmToLlvm.Instruction
