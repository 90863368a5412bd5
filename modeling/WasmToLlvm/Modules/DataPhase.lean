import WasmToLlvm.Modules.Frames
import WasmToLlvm.Modules.MemoryImage

/-!
# The image of the memory of a module

Memories are declared with zeros, the data segments write one after another, and the
phases after them leave the bytes alone.
-/

set_option autoImplicit false

namespace WasmToLlvm.Modules

open Llvm Wasm Block Instruction Library

/-! ## Before the data segments -/

/-- A variable for a memory of the module, with zeros. -/
def Blank (context : Context) (mem : Nat) : Prop :=
  ∃ memory : Memory, memory.pageLimits ∈ context.module.memories.map Memory.pageLimits ∧
    ∃ name linkage isConstant initializer section_, context.llvmModule.values[mem]? =
      some ⟨name, linkage, .variable (.array (memory.pages * 65536) (.int 8)) isConstant initializer section_⟩ ∧
        (initializer = none ∨ initializer = some (.zero (.array (memory.pages * 65536) (.int 8))))

/-- Memories are declared, and have no data so far. -/
structure Declared (context : Context) : Prop where
  typed : Typed context
  counted : context.memIndex = context.mems.length
  blank : ∀ mem ∈ context.mems, Blank context mem

/-- The later state has the options, the arrays and the memories' sizes of the earlier one. -/
structure SameInput (before after : Context) : Prop where
  opts : after.opts = before.opts
  arrays : after.arrays = before.arrays
  limits : after.module.memories.map Memory.pageLimits = before.module.memories.map Memory.pageLimits

theorem SameInput.refl {context : Context} : SameInput context context := ⟨rfl, rfl, rfl⟩

theorem SameInput.trans {first second third : Context} (left : SameInput first second)
    (right : SameInput second third) : SameInput first third :=
  ⟨right.opts.trans left.opts, right.arrays.trans left.arrays, right.limits.trans left.limits⟩

def declareGrading : Grading Context Unit :=
  .ofPreorder (fun before after => Declared before → Declared after ∧ SameInput before after)
    (fun _ declared => ⟨declared, .refl⟩)
    fun left right declared =>
      ⟨(right (left declared).1).1, (left declared).2.trans (right (left declared).1).2⟩

/-- A computation of a phase before the data segments. -/
abbrev Declares {α : Type} (before : Context) (emit : Translate α) : Prop :=
  Effect declareGrading before emit ()

section Declare

variable {before : Context}

/-- What leaves bytes alone keeps blank memories blank. -/
theorem KeepsBytes.declares {α : Type} {emit : Translate α} (keeps : KeepsBytes before emit) :
    Declares before emit where
  run ran declared := by
    obtain ⟨typed, kept⟩ := keeps.run ran declared.typed
    refine ⟨⟨typed, ?_, fun mem member => ?_⟩, ⟨kept.opts, kept.arrays, kept.limits⟩⟩
    · rw [kept.memIndex, kept.mems]
      exact declared.counted
    · obtain ⟨memory, isLimits, name, linkage, isConstant, initializer, section_, found, zeros⟩ :=
        declared.blank mem (kept.mems ▸ member)
      obtain ⟨⟨name', linkage', object⟩, found', _, same⟩ := kept.values mem _ found
      cases same ⟨_, rfl⟩
      exact ⟨memory, kept.limits ▸ isLimits, name', linkage', isConstant, initializer, section_, found', zeros⟩

theorem declareMemory_declares (index : Nat) (isExternal : Bool) : Declares before (declareMemory index isExternal) := by
  unfold declareMemory
  refine .get ⟨fun ran declared => ?_⟩
  obtain ⟨memory, middle, ranAt, ranRest⟩ := bind_ok.mp ran
  obtain ⟨found, same⟩ := at_ok ranAt
  cases same
  have isLimits : memory.pageLimits ∈ before.module.memories.map Memory.pageLimits :=
    List.mem_map_of_mem (List.mem_of_getElem? found)
  have initialized : ∀ name, Initialized ⟨name, linkageOf isExternal, .variable (.array (memory.pages * 65536) (.int 8))
      false (if isExternal then none else some (.zero (.array (memory.pages * 65536) (.int 8)))) none⟩ := by
    intro name constant full
    cases isExternal with
    | true => cases full
    | false => cases full; rfl
  obtain ⟨id, created, ranCreate, ranPush⟩ := bind_ok.mp ranRest
  obtain ⟨unique, foundNew⟩ := createGlobalValue_found ranCreate
  obtain ⟨declared', same⟩ := (createGlobalValue_keeps initialized).declares.run ranCreate declared
  cases ranPush
  refine ⟨⟨⟨declared'.typed.values, declared'.typed.tables⟩, ?_, fun mem member => ?_⟩, ⟨same.opts, same.arrays, same.limits⟩⟩
  · show created.memIndex + 1 = (created.mems ++ [id]).length
    rw [List.length_append, declared'.counted]
    rfl
  · cases List.mem_append.mp member with
    | inl older => exact declared'.blank mem older
    | inr new =>
        cases List.mem_singleton.mp new
        refine ⟨memory, same.limits ▸ isLimits, unique, _, _, _, _, foundNew, ?_⟩
        cases isExternal with
        | true => exact .inl rfl
        | false => exact .inr rfl

theorem visitImport_declares (entity : Import) : Declares before (visitImport entity) := by
  unfold visitImport
  refine (nameImport_keeps entity).declares.skip fun _ => ?_
  cases entity.kind with
  | func => exact (declareFunc_keeps _ _).declares.skip fun _ => .pure _
  | memory => exact declareMemory_declares _ _
  | global => exact (visitGlobal_keeps _ _).declares
  | table => exact (visitTable_keeps _ _).declares
  | tag => exact .pure _

theorem visitGlobals_declares (visited indices : List Nat) : Declares before (visitGlobals visited indices) := by
  induction indices generalizing before with
  | nil => exact .pure _
  | cons index rest ih =>
      unfold visitGlobals
      by_cases member : index ∈ visited
      · rw [if_neg (not_not.mpr member)]
        exact ih
      · rw [if_pos member]
        exact (visitGlobal_keeps index false).declares.skip fun _ => ih

theorem declareEntities_declares (module : Module) : Declares before (declareEntities module) := by
  unfold declareEntities
  refine .get (.ite (fun _ => .throw _) fun _ => ?_)
  refine (Effect.forM_one fun entity _ _ => visitImport_declares entity).skip fun _ => ?_
  refine (visitGlobals_declares _ _).skip fun _ => ?_
  exact Effect.forM_one fun index _ _ => declareMemory_declares index false

end Declare

theorem start_declared (opts : Options) (arrays : DataArrays) (module : Module) :
    Declared (Context.start opts arrays module) where
  typed := ⟨nofun, nofun⟩
  counted := rfl
  blank := nofun

/-- The only memory is full of zeros before the data segments. -/
theorem declareEntities_image {opts : Options} {arrays : DataArrays} {module : Module} {memory : Memory}
    {declared : Context} (listed : module.Listed) (single : module.memories = [memory])
    (ran : declareEntities module (Context.start opts arrays module) = .ok ((), declared)) :
    ∃ mem, HasImage declared 0 mem (memory.pages * 65536) (List.replicate (memory.pages * 65536) 0) ∧
      Typed declared ∧ SameInput (Context.start opts arrays module) declared := by
  obtain ⟨isDeclared, same⟩ := (declareEntities_declares module).run ran (start_declared opts arrays module)
  have sound : Sound (Context.start opts arrays module) := ⟨rfl, nofun, List.nodup_nil⟩
  obtain ⟨_, spaces⟩ := (declareEntities_adds module).run ran sound
  have count : declared.mems.length = 1 := by
    have inSpace := congrArg (List.length ∘ Spaces.mems) spaces
    have memories := congrArg List.length listed.memories
    simp [Context.spaces, Context.start, Spaces.ofImports, Spaces.ofGlobals, Spaces.ofMemories] at inSpace
    rw [List.length_append, List.length_range, single] at memories
    exact inSpace.trans memories
  obtain ⟨mem, isMems⟩ := List.length_eq_one_iff.mp count
  obtain ⟨blank, isLimits, name, linkage, isConstant, initializer, section_, found, zeros⟩ :=
    isDeclared.blank mem (isMems ▸ List.mem_singleton_self mem)
  have pages : blank.pages = memory.pages := by
    rw [same.limits] at isLimits
    have limits : (Context.start opts arrays module).module.memories = [memory] := single
    rw [limits] at isLimits
    have sameLimits : blank.pageLimits = memory.pageLimits := List.mem_singleton.mp isLimits
    rw [Memory.pages, Memory.pages, sameLimits]
  rw [pages] at found zeros
  refine ⟨mem, ⟨by rw [isMems]; rfl, ?_, ⟨name, linkage, isConstant, initializer, section_, found, ?_⟩,
    List.length_replicate⟩, isDeclared.typed, same⟩
  · rw [isDeclared.counted, count]
    exact Nat.zero_lt_one
  · cases zeros with
    | inl none_ => rw [none_]; rfl
    | inr zero => rw [zero]; rfl

/-! ## The data segments -/

/-- The image after a segment, or nothing where the translation stops. -/
def writeSegment (image : List Byte) (segment : DataSegment) : Option (List Byte) :=
  segment.address.bind fun address =>
    if fits image.length address segment.data.length ∧
        (writtenPlaces address segment.data.length).all (· < image.length) then
      some (overwrite image address.toNat segment.data)
    else none

section Fill

variable {before after : Context} {segment : DataSegment} {index mem size : Nat} {image image' buffer : List Byte}
  {memory : GlobalValue Body}

theorem writeSegment_some (written : writeSegment image segment = some image') :
    ∃ address, segment.address = some address ∧ ∀ context : Context,
      copyData image address segment.data context = .ok (image', context) := by
  obtain ⟨address, isAddress, written⟩ := Option.bind_eq_some_iff.mp written
  refine ⟨address, isAddress, fun context => ?_⟩
  split at written
  · rename_i accepted
    cases written
    rw [copyData_accepted (fits_iff.mp accepted.1), if_pos accepted.2]
  · cases written

/-- Data that can be written stays in the image. -/
theorem writeSegment_length (bounded : image.length < 2 ^ 64) (written : writeSegment image segment = some image') :
    image'.length = image.length := by
  obtain ⟨address, isAddress, written⟩ := Option.bind_eq_some_iff.mp written
  split at written
  · rename_i accepted
    cases written
    refine overwrite_length ?_
    by_contra outside
    have sum := fits_iff.mp accepted.1
    have bound := address.isLt
    by_cases starts : address.toNat < image.length
    · -- the first place behind the image would be written
      have covered : (address.toNat + (image.length - address.toNat)) % 2 ^ 64 ∈
          writtenPlaces address segment.data.length :=
        List.mem_map.mpr ⟨_, List.mem_range.mpr (by omega), rfl⟩
      have inside := decide_eq_true_eq.mp (List.all_eq_true.mp accepted.2 _ covered)
      rw [Nat.mod_eq_of_lt (by omega)] at inside
      omega
    · have empty : segment.data.length = 0 := by
        by_contra filled
        have covered : (address.toNat + 0) % 2 ^ 64 ∈ writtenPlaces address segment.data.length :=
          List.mem_map.mpr ⟨0, List.mem_range.mpr (by omega), rfl⟩
        have inside := decide_eq_true_eq.mp (List.all_eq_true.mp accepted.2 _ covered)
        rw [Nat.add_zero, Nat.mod_eq_of_lt bound] at inside
        exact starts inside
      rw [empty, Nat.zero_add, Nat.mod_eq_of_lt bound] at sum
      omega
  · cases written

/-- Storing an image keeps the types and the options. -/
theorem storeImage_keeps (typed : Typed before) (found : before.llvmModule.values[mem]? = some memory)
    (type : memory.valueType = .array size (.int 8)) (length : buffer.length = size)
    (ran : storeImage mem memory.initializer buffer before = .ok ((), after)) :
    Typed after ∧ after.opts = before.opts := by
  have fresh : ∀ arrays, Typed { before with
      arrays := arrays
      llvmModule := before.llvmModule.update mem fun value =>
        value.setInitializer (getRaw before.arrays buffer).1 } := by
    intro arrays
    refine ⟨typed.values.update fun gv foundAgain _ => ?_, fun id member => ?_⟩
    · cases found.symm.trans foundAgain
      refine .setInitializer ?_
      rw [type, ← length]
      exact getRaw_fits before.arrays buffer
    · obtain ⟨gv, count, foundTable, isPointers⟩ := typed.tables id member
      refine ⟨_, count, update_found foundTable, ?_⟩
      by_cases here : mem = id
      · rw [if_pos here, valueType_setInitializer, isPointers]
      · rw [if_neg here, isPointers]
  cases initializer : memory.initializer with
  | none =>
      rw [initializer] at ran
      cases ran
      exact ⟨fresh _, rfl⟩
  | some constant =>
      rw [initializer] at ran
      cases constant with
      | data object =>
          cases ran
          exact ⟨⟨typed.values, typed.tables⟩, rfl⟩
      | zero other => cases ran; exact ⟨fresh _, rfl⟩
      | value value => cases ran; exact ⟨fresh _, rfl⟩
      | pointers elements => cases ran; exact ⟨fresh _, rfl⟩

/-- A segment that can be written. -/
theorem visitDataSegment_written (holds : HasImage before segment.memory mem size image) (typed : Typed before)
    (flattens : before.opts.flattens) (bounded : size < 2 ^ 64) (written : writeSegment image segment = some image') :
    ∃ after, visitDataSegment segment before = .ok ((), after) ∧ HasImage after segment.memory mem size image' ∧
      Typed after ∧ after.opts = before.opts := by
  obtain ⟨name, linkage, isConstant, initializer, section_, isMemory, isImage⟩ := holds.variable_
  obtain ⟨address, isAddress, copied⟩ := writeSegment_some written
  have length : image'.length = size :=
    (writeSegment_length (holds.length ▸ bounded) written).trans holds.length
  obtain ⟨after, ran, holds'⟩ := storeImage_run holds isMemory length
  refine ⟨after, ?_, holds', storeImage_keeps typed isMemory rfl length ran⟩
  rw [visitDataSegment_eq holds isMemory flattens isAddress, bind_run_ok (copied before)]
  exact ran

/-- Segments that can be written one after another. -/
theorem visitDataSegments_written {segments : List DataSegment} (holds : HasImage before index mem size image)
    (typed : Typed before) (flattens : before.opts.flattens) (bounded : size < 2 ^ 64)
    (memories : ∀ segment ∈ segments, segment.memory = index)
    (written : segments.foldlM writeSegment image = some image') :
    ∃ after, segments.forM visitDataSegment before = .ok ((), after) ∧ HasImage after index mem size image' ∧
      Typed after ∧ after.opts = before.opts := by
  induction segments generalizing before image with
  | nil =>
      cases written
      exact ⟨before, rfl, holds, typed, rfl⟩
  | cons segment rest ih =>
      rw [List.foldlM_cons] at written
      obtain ⟨middleImage, writtenFirst, writtenRest⟩ := Option.bind_eq_some_iff.mp written
      have isIndex := memories segment List.mem_cons_self
      obtain ⟨middle, ran, holdsMiddle, typedMiddle, optsMiddle⟩ :=
        visitDataSegment_written (isIndex.symm ▸ holds) typed flattens bounded writtenFirst
      obtain ⟨after, ranRest, holdsAfter, typedAfter, optsAfter⟩ :=
        ih (isIndex ▸ holdsMiddle) typedMiddle (optsMiddle ▸ flattens)
          (fun other member => memories other (List.mem_cons_of_mem _ member)) writtenRest
      exact ⟨after, forM_cons_ok.mpr ⟨middle, ran, ranRest⟩, holdsAfter, typedAfter, optsAfter.trans optsMiddle⟩

end Fill

/-! ## After the data segments -/

theorem finishModule_keeps {before : Context} (module : Module) : KeepsBytes before (finishModule module) := by
  unfold finishModule
  refine (declareFuncs_keeps _).skip fun _ => ?_
  refine Effect.skip (Effect.forM_one fun index _ _ => visitTable_keeps index false) fun _ => ?_
  refine (visitFuncs_keeps _ _).skip fun _ => ?_
  refine Effect.skip (Effect.forM_one fun entity _ _ => visitExport_keeps entity) fun _ => .get ?_
  refine (assignDefaultNames_keeps _ _).skip fun _ => ?_
  refine Effect.skip (Effect.forM_one fun elem _ _ => visitElem_keeps elem) fun _ => .get ?_
  exact .ite (fun _ => .throw _) fun _ => .pure _

/-- Kept variables have their images. -/
theorem Keeps.image {before after : Context} {index mem size : Nat} {image : List Byte} (keeps : Keeps before after)
    (holds : HasImage before index mem size image) : HasImage after index mem size image := by
  obtain ⟨name, linkage, isConstant, initializer, section_, found, isImage⟩ := holds.variable_
  obtain ⟨⟨name', linkage', object⟩, found', _, same⟩ := keeps.values mem _ found
  cases same ⟨_, rfl⟩
  exact {
    inMems := keeps.mems ▸ holds.inMems
    counted := keeps.memIndex ▸ holds.counted
    variable_ := ⟨name', linkage', isConstant, initializer, section_, found', keeps.arrays ▸ isImage⟩
    length := holds.length }

/-! ## Constant offsets -/

/-- A segment at a constant offset inside a memory of a size. -/
structure Within (size index : Nat) (segment : DataSegment) : Prop where
  memory : segment.memory = index
  inside : ∃ u : BitVec 32, segment.offset = [.const (.i32 u)] ∧ u.toNat + segment.data.length ≤ size

/-- The data with its place in the memory. -/
def DataSegment.piece (segment : DataSegment) : Nat × List Byte :=
  match segment.offset with
  | [.const (.i32 u)] => (u.toNat, segment.data)
  | _ => (0, segment.data)

/-- Zeros, with the data of the segments written one after another. -/
def referenceImage (size : Nat) (segments : List DataSegment) : List Byte :=
  overwriteAll (List.replicate size 0) (segments.map DataSegment.piece)

section Reference

variable {size index : Nat} {segment : DataSegment} {segments : List DataSegment} {image : List Byte}

theorem Within.piece_inside (within : Within size index segment) :
    segment.piece.1 + segment.piece.2.length ≤ size := by
  obtain ⟨u, isOffset, inside⟩ := within.inside
  unfold DataSegment.piece
  rw [isOffset]
  exact inside

/-- The sign of an offset below 2 ^ 31 does not matter, and nothing wraps around. -/
theorem Within.written (within : Within size index segment) (small : size < 2 ^ 31) (length : image.length = size) :
    writeSegment image segment = some (overwrite image segment.piece.1 segment.piece.2) := by
  obtain ⟨u, isOffset, inside⟩ := within.inside
  have address : (u.signExtend 64).toNat = u.toNat := by
    rw [toNat_signExtend_64, if_pos (by omega)]
  have piece : segment.piece = (u.toNat, segment.data) := by
    unfold DataSegment.piece
    rw [isOffset]
  have accepted : fits image.length (u.signExtend 64) segment.data.length = true := by
    rw [fits_iff, address, Nat.mod_eq_of_lt (by omega)]
    omega
  have places : (writtenPlaces (u.signExtend 64) segment.data.length).all (· < image.length) = true := by
    rw [List.all_eq_true]
    intro place member
    obtain ⟨count, covered, rfl⟩ := List.mem_map.mp member
    have below := List.mem_range.mp covered
    rw [decide_eq_true_eq, address, Nat.mod_eq_of_lt (by omega)]
    omega
  rw [writeSegment, address_const isOffset, Option.bind_some, if_pos ⟨accepted, places⟩, address, piece]

theorem written_reference (within : ∀ segment ∈ segments, Within size index segment) (small : size < 2 ^ 31)
    (length : image.length = size) :
    segments.foldlM writeSegment image = some (overwriteAll image (segments.map DataSegment.piece)) := by
  induction segments generalizing image with
  | nil => rfl
  | cons segment rest ih =>
      have first := within segment List.mem_cons_self
      have kept : (overwrite image segment.piece.1 segment.piece.2).length = size :=
        (overwrite_length (length ▸ first.piece_inside)).trans length
      rw [List.foldlM_cons, first.written small length, Option.bind_eq_bind, Option.bind_some,
        ih (fun other member => within other (List.mem_cons_of_mem _ member)) kept]
      rfl

/-- Every byte is from the last segment that covers it. -/
theorem referenceImage_getElem? (within : ∀ segment ∈ segments, Within size index segment) {place : Nat}
    (inside : place < size) :
    (referenceImage size segments)[place]? = some ((lastPiece (segments.map DataSegment.piece) place).getD 0) := by
  have pieces : ∀ piece ∈ segments.map DataSegment.piece,
      piece.1 + piece.2.length ≤ (List.replicate size (0 : Byte)).length := by
    intro piece member
    obtain ⟨segment, isSegment, rfl⟩ := List.mem_map.mp member
    rw [List.length_replicate]
    exact (within segment isSegment).piece_inside
  rw [referenceImage, overwriteAll_getElem? pieces, List.getElem?_replicate, if_pos inside]
  cases lastPiece (segments.map DataSegment.piece) place <;> rfl

end Reference

/-- The memory of a module has its reference image after the data segments, which do not stop
the translation, and at the end. -/
structure FillsMemory (opts : Options) (arrays : DataArrays) (module : Module) (size : Nat) : Prop where
  filled : ∀ declared, declareEntities module (Context.start opts arrays module) = .ok ((), declared) →
    ∃ mem after, module.dataSegments.forM visitDataSegment declared = .ok ((), after) ∧
      HasImage after 0 mem size (referenceImage size module.dataSegments)
  final : ∀ context, translateModule opts arrays module = .ok context →
    ∃ mem, HasImage context 0 mem size (referenceImage size module.dataSegments)
  last : ∀ place, place < size → (referenceImage size module.dataSegments)[place]? =
    some ((lastPiece (module.dataSegments.map DataSegment.piece) place).getD 0)

section Single

variable {opts : Options} {arrays : DataArrays} {module : Module} {memory : Memory}

/-- Segments that can be written give the image, whatever arrays there are. -/
theorem visitDataSegments_image {declared : Context} {image : List Byte} (listed : module.Listed)
    (single : module.memories = [memory]) (flattens : opts.flattens) (bounded : memory.pages * 65536 < 2 ^ 64)
    (memories : ∀ segment ∈ module.dataSegments, segment.memory = 0)
    (written : module.dataSegments.foldlM writeSegment (List.replicate (memory.pages * 65536) 0) = some image)
    (ran : declareEntities module (Context.start opts arrays module) = .ok ((), declared)) :
    ∃ mem filled, module.dataSegments.forM visitDataSegment declared = .ok ((), filled) ∧
      HasImage filled 0 mem (memory.pages * 65536) image ∧ Typed filled := by
  obtain ⟨mem, holds, typed, same⟩ := declareEntities_image listed single ran
  obtain ⟨filled, ranFill, holdsFilled, typedFilled, _⟩ :=
    visitDataSegments_written holds typed (same.opts ▸ flattens) bounded memories written
  exact ⟨mem, filled, ranFill, holdsFilled, typedFilled⟩

/-- The data segments are written into the memory, and at the end of the translation the
bytes are still there. -/
theorem translateModule_image (listed : module.Listed) (single : module.memories = [memory])
    (flattens : opts.flattens) (small : memory.pages * 65536 < 2 ^ 31)
    (within : ∀ segment ∈ module.dataSegments, Within (memory.pages * 65536) 0 segment) :
    FillsMemory opts arrays module (memory.pages * 65536) := by
  have phase : ∀ declared, declareEntities module (Context.start opts arrays module) = .ok ((), declared) →
      ∃ mem filled, module.dataSegments.forM visitDataSegment declared = .ok ((), filled) ∧
        HasImage filled 0 mem (memory.pages * 65536) (referenceImage (memory.pages * 65536) module.dataSegments) ∧
        Typed filled := fun declared ran =>
    visitDataSegments_image listed single flattens (by omega) (fun segment member => (within segment member).memory)
      (written_reference within small List.length_replicate) ran
  refine ⟨fun declared ran => ?_, fun context ran => ?_, fun place inside => referenceImage_getElem? within inside⟩
  · obtain ⟨mem, filled, ranFill, holds, _⟩ := phase declared ran
    exact ⟨mem, filled, ranFill, holds⟩
  · obtain ⟨declared, filled, ranDeclare, ranFill, ranFinish⟩ := translateModule_iff.mp ran
    obtain ⟨mem, filled', ranFill', holds, typed⟩ := phase declared ranDeclare
    cases ranFill.symm.trans ranFill'
    exact ⟨mem, ((finishModule_keeps module).run ranFinish typed).2.image holds⟩

end Single

/-- A memory of one page with these data segments. -/
def pageModule (segments : List DataSegment) : Module where
  name := []
  funcs := []
  globals := []
  tables := []
  memories := [⟨[], ⟨1, none⟩⟩]
  imports := []
  fields := .memory 0 :: segments.map .dataSegment
  exports := []
  elemSegments := []

/-- `(data (i32.const offset) bytes)`. -/
def dataAt (offset : BitVec 32) (bytes : List Byte) : DataSegment :=
  ⟨[], 0, [.const (.i32 offset)], bytes⟩

theorem translateModule_image_overlap : FillsMemory ⟨false, false, false, false, false, false, false⟩ []
    (pageModule [dataAt 8 [1, 2], dataAt 9 [3], dataAt 0 []]) (1 * 65536) := by
  have within : ∀ segment ∈ [dataAt 8 [1, 2], dataAt 9 [3], dataAt 0 []], Within (1 * 65536) 0 segment := by
    intro segment member
    simp only [List.mem_cons, List.not_mem_nil, or_false] at member
    rcases member with rfl | rfl | rfl
    · exact ⟨rfl, 8, rfl, by decide⟩
    · exact ⟨rfl, 9, rfl, by decide⟩
    · exact ⟨rfl, 0, rfl, by decide⟩
  have check : FillsMemory ⟨false, false, false, false, false, false, false⟩ []
      (pageModule [dataAt 8 [1, 2], dataAt 9 [3], dataAt 0 []]) (Memory.pages ⟨[], ⟨1, none⟩⟩ * 65536) :=
    translateModule_image ⟨rfl, rfl, rfl, rfl⟩ rfl ⟨rfl, rfl⟩ (by decide) within
  exact check

end WasmToLlvm.Modules
