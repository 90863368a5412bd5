import WasmToLlvm.Modules.SplitMemory

/-!
# Modules in one context

Modules that are translated one after another share the arrays of the context. A data
segment that is written in place changes an array for every module that has it.
-/

set_option autoImplicit false

namespace WasmToLlvm.Modules

open Llvm Wasm Block Instruction Library

/-! ## One data segment -/

/-- The image after a segment, under the options. -/
def imageStep (opts : Options) (image : List Byte) (segment : DataSegment) : Option (List Byte) :=
  if opts.splitMem ∨ opts.noMemInitializer then some image else writeSegment image segment

/-- The initializer of a variable. -/
def Context.initializerOf (context : Context) (mem : Nat) : Option Constant :=
  (context.llvmModule.values[mem]?).bind GlobalValue.initializer

/-- The arrays are those before and some more, or the array of a memory was written. -/
inductive ChangesArrays (before : Context) (mem : Nat) (image image' : List Byte) (after : Context) : Prop where
  | adds (arrays : before.arrays <+: after.arrays)
  | writes {object : Nat} (shares : before.initializerOf mem = some (.data object))
      (found : before.arrays[object]? = some image) (arrays : after.arrays = before.arrays.set object image')

/-- What visiting a segment does. -/
structure Visits (before : Context) (segment : DataSegment) (mem size : Nat) (image image' : List Byte)
    (after : Context) : Prop where
  step : imageStep before.opts image segment = some image'
  holds : HasImage after segment.memory mem size image'
  arrays : ChangesArrays before mem image image' after
  opts : after.opts = before.opts
  typed : Typed after

section Step

variable {before after : Context} {segment : DataSegment} {mem size : Nat} {image buffer : List Byte}
  {memory : GlobalValue Body} {address : BitVec 64} {data : List Byte}

theorem visitInitExpr_ok {expr : InitExpr} {value : Option Value}
    (ran : visitInitExpr expr before = .ok (value, after)) :
    (∃ const, expr = [.const const] ∧ value = some (visitConst const)) ∨ value = none := by
  unfold visitInitExpr at ran
  split at ran
  · rename_i const
    cases ran
    exact .inl ⟨const, rfl, rfl⟩
  · cases ran
  · cases ran
    exact .inr rfl
  · cases ran

theorem unwrapIntConstant_ok {value : Option Value}
    (ran : unwrapIntConstant value before = .ok (address, after)) :
    ∃ width number, value = some (.int width number) ∧ address = (BitVec.ofNat width number).signExtend 64 := by
  unfold unwrapIntConstant at ran
  split at ran
  · rename_i width number
    cases ran
    exact ⟨width, number, rfl, rfl⟩
  · cases ran

/-- A segment that is visited in the flat way has an address. -/
theorem visitDataSegment_address (holds : HasImage before segment.memory mem size image)
    (flattens : before.opts.flattens) (ran : visitDataSegment segment before = .ok ((), after)) :
    ∃ address, segment.address = some address := by
  obtain ⟨name, linkage, isConstant, initializer, section_, found, isImage⟩ := holds.variable_
  obtain ⟨noSplit, initialized⟩ := flattens
  unfold visitDataSegment at_ at ran
  simp only [get_bind_run, if_neg (Nat.not_le_of_lt holds.counted), holds.inMems, found, pure_bind_run, noSplit,
    initialized, Bool.false_eq_true, if_false] at ran
  obtain ⟨value, middle, ranInit, ranRest⟩ := bind_ok.mp ran
  obtain ⟨address, _, ranUnwrap, _⟩ := bind_ok.mp ranRest
  obtain ⟨width, number, isInt, isAddress⟩ := unwrapIntConstant_ok ranUnwrap
  cases visitInitExpr_ok ranInit with
  | inl const =>
      obtain ⟨const, isOffset, isValue⟩ := const
      have same : visitConst const = .int width number := Option.some.inj (isValue.symm.trans isInt)
      refine ⟨(BitVec.ofNat width number).signExtend 64, ?_⟩
      unfold DataSegment.address
      rw [isOffset]
      simp only [same]
  | inr none_ => cases isInt.symm.trans none_

theorem copyData_ok (ran : copyData image address data before = .ok (buffer, after)) :
    (fits image.length address data.length = true ∧
        (writtenPlaces address data.length).all (· < image.length) = true) ∧
      buffer = overwrite image address.toNat data ∧ after = before := by
  unfold copyData at ran
  split at ran
  · cases ran
  · rename_i accepted
    split at ran
    · rename_i places
      cases ran
      exact ⟨⟨by simpa using accepted, places⟩, rfl, rfl⟩
    · cases ran

theorem storeImage_changes {image' : List Byte} (found : before.llvmModule.values[mem]? = some memory)
    (isImage : imageOf before.arrays size memory.initializer = some image)
    (ran : storeImage mem memory.initializer image' before = .ok ((), after)) :
    ChangesArrays before mem image image' after := by
  cases initializer : memory.initializer with
  | none =>
      rw [initializer] at ran
      cases ran
      exact .adds (getRaw_extends before.arrays image')
  | some constant =>
      rw [initializer] at ran isImage
      cases constant with
      | data object =>
          cases ran
          refine .writes ?_ isImage rfl
          rw [Context.initializerOf, found, Option.bind_some, initializer]
      | zero type => cases ran; exact .adds (getRaw_extends before.arrays image')
      | value value => cases isImage
      | pointers elements => cases isImage

theorem visitDataSegment_flat_visits (holds : HasImage before segment.memory mem size image) (typed : Typed before)
    (flattens : before.opts.flattens) (bounded : size < 2 ^ 64)
    (ran : visitDataSegment segment before = .ok ((), after)) :
    ∃ image', Visits before segment mem size image image' after := by
  obtain ⟨name, linkage, isConstant, initializer, section_, found, isImage⟩ := holds.variable_
  obtain ⟨address, isAddress⟩ := visitDataSegment_address holds flattens ran
  have ranStore := ran
  rw [visitDataSegment_eq holds found flattens isAddress] at ranStore
  obtain ⟨image', middle, ranCopy, ranStore⟩ := bind_ok.mp ranStore
  obtain ⟨accepted, isOverwrite, same⟩ := copyData_ok ranCopy
  cases same
  have written : writeSegment image segment = some image' := by
    rw [writeSegment, isAddress, Option.bind_some, if_pos accepted, isOverwrite]
  obtain ⟨after', ran', holds', typed', opts'⟩ := visitDataSegment_written holds typed flattens bounded written
  cases ran.symm.trans ran'
  refine ⟨image', ?_, holds', storeImage_changes found isImage ranStore, opts', typed'⟩
  rw [imageStep, if_neg (by simp [flattens.1, flattens.2]), written]

theorem visitDataSegment_split_visits (holds : HasImage before segment.memory mem size image) (typed : Typed before)
    (split : before.opts.splitMem = true) (ran : visitDataSegment segment before = .ok ((), after)) :
    Visits before segment mem size image image after := by
  obtain ⟨name, linkage, isConstant, initializer, section_, found, isImage⟩ := holds.variable_
  have ranCreate := ran
  rw [visitDataSegment_splits holds split found] at ranCreate
  obtain ⟨value, middle, ranInit, ranCreate⟩ := bind_ok.mp ranCreate
  cases visitInitExpr_reads.same ranInit
  have isInt : ∃ width number, value = some (.int width number) := by
    unfold createSplitSegment at ranCreate
    split at ranCreate
    · exact ⟨_, _, rfl⟩
    · cases ranCreate
  obtain ⟨width, number, isInt⟩ := isInt
  rw [isInt] at ranCreate
  obtain ⟨after', gv, ranCreate', adds⟩ := createSplitSegment_run before _ segment width number
  cases ranCreate.symm.trans ranCreate'
  refine ⟨?_, holds.extend adds.mems adds.memIndex adds.values adds.arrays, .adds adds.arrays, adds.opts,
    adds.typed typed⟩
  rw [imageStep, if_pos (.inl split)]

/-- All that visiting a segment can do. -/
theorem visitDataSegment_visits (holds : HasImage before segment.memory mem size image) (typed : Typed before)
    (bounded : size < 2 ^ 64) (ran : visitDataSegment segment before = .ok ((), after)) :
    ∃ image', Visits before segment mem size image image' after := by
  by_cases split : before.opts.splitMem = true
  · exact ⟨image, visitDataSegment_split_visits holds typed split ran⟩
  · rw [Bool.not_eq_true] at split
    by_cases skips : before.opts.noMemInitializer = true
    · obtain ⟨name, linkage, isConstant, initializer, section_, found, isImage⟩ := holds.variable_
      unfold visitDataSegment at_ at ran
      simp only [get_bind_run, if_neg (Nat.not_le_of_lt holds.counted), holds.inMems, found, pure_bind_run, split,
        skips, Bool.false_eq_true, if_false, if_true] at ran
      obtain ⟨value, middle, ranInit, ranRest⟩ := bind_ok.mp ran
      cases visitInitExpr_reads.same ranInit
      cases ranRest
      refine ⟨image, ?_, holds, .adds (List.prefix_refl _), rfl, typed⟩
      rw [imageStep, if_pos (.inr skips)]
    · exact visitDataSegment_flat_visits holds typed ⟨split, Bool.not_eq_true _ ▸ skips⟩ bounded ran

end Step

/-! ## All data segments -/

/-- Data that are there already change nothing, under any options. -/
theorem imageStep_kept {opts : Options} {image image' : List Byte} {segment : DataSegment}
    (kept : writeSegment image segment = some image) (step : imageStep opts image segment = some image') :
    image' = image := by
  unfold imageStep at step
  split at step
  · exact (Option.some.inj step).symm
  · exact Option.some.inj (step.symm.trans kept)

/-- The initializer of the only memory. -/
def Context.memoryInitializer (context : Context) : Option Constant :=
  (context.mems[0]?).bind context.initializerOf

/-- The segment is not written into the array of an earlier module's memory, or its data are
there already. -/
def SparesEarlier (earlier : List Context) (before : Context) (segment : DataSegment) : Prop :=
  ∀ object image, before.memoryInitializer = some (.data object) → before.arrays[object]? = some image →
    (∃ context ∈ earlier, context.memoryInitializer = some (.data object)) → writeSegment image segment = some image

section Segments

variable {before after : Context} {segments : List DataSegment} {mem size : Nat} {image : List Byte}

/-- Visiting the segments gives an image that depends on nothing else. -/
theorem visitDataSegments_visits (holds : HasImage before 0 mem size image) (typed : Typed before)
    (bounded : size < 2 ^ 64) (memories : ∀ segment ∈ segments, segment.memory = 0)
    (ran : segments.forM visitDataSegment before = .ok ((), after)) :
    ∃ image', segments.foldlM (imageStep before.opts) image = some image' ∧ HasImage after 0 mem size image' ∧
      Typed after := by
  induction segments generalizing before image with
  | nil =>
      cases ran
      exact ⟨image, rfl, holds, typed⟩
  | cons segment rest ih =>
      obtain ⟨middle, ranFirst, ranRest⟩ := forM_cons_ok.mp ran
      have isZero := memories segment List.mem_cons_self
      obtain ⟨middleImage, visits⟩ := visitDataSegment_visits (isZero.symm ▸ holds) typed bounded ranFirst
      obtain ⟨image', steps, holds', typed'⟩ := ih (isZero ▸ visits.holds) visits.typed
        (fun other member => memories other (List.mem_cons_of_mem _ member)) ranRest
      refine ⟨image', ?_, holds', typed'⟩
      rw [List.foldlM_cons, visits.step, Option.bind_eq_bind, Option.bind_some, ← visits.opts]
      exact steps

/-- Where segments spare earlier modules, the arrays of those are left alone. -/
theorem visitDataSegments_spare {earlier : List Context} {context : Context} {object : Nat} {bytes : List Byte}
    (holds : HasImage before 0 mem size image) (typed : Typed before)
    (bounded : size < 2 ^ 64) (memories : ∀ segment ∈ segments, segment.memory = 0)
    (spares : EachRound visitDataSegment (SparesEarlier earlier) segments before) (member : context ∈ earlier)
    (uses : context.memoryInitializer = some (.data object)) (found : before.arrays[object]? = some bytes)
    (ran : segments.forM visitDataSegment before = .ok ((), after)) : after.arrays[object]? = some bytes := by
  induction segments generalizing before image with
  | nil =>
      cases ran
      exact found
  | cons segment rest ih =>
      obtain ⟨middle, ranFirst, ranRest⟩ := forM_cons_ok.mp ran
      obtain ⟨sparesFirst, sparesRest⟩ := spares
      have isZero := memories segment List.mem_cons_self
      obtain ⟨middleImage, visits⟩ := visitDataSegment_visits (isZero.symm ▸ holds) typed bounded ranFirst
      refine ih (isZero ▸ visits.holds) visits.typed (fun other inRest => memories other (List.mem_cons_of_mem _ inRest))
        (sparesRest middle ranFirst) ?_ ranRest
      cases visits.arrays with
      | adds arrays =>
          obtain ⟨more, same⟩ := arrays
          rw [← same, List.getElem?_append_left (List.getElem?_eq_some_iff.mp found).1, found]
      | @writes other shares foundImage arrays =>
          rw [arrays]
          by_cases here : other = object
          · -- the array is shared, so its bytes stay
            cases here
            cases foundImage.symm.trans found
            have own : before.memoryInitializer = some (.data object) := by
              rw [Context.memoryInitializer, holds.inMems, Option.bind_some, shares]
            have kept := sparesFirst object bytes own found ⟨context, member, uses⟩
            have same : middleImage = bytes := imageStep_kept kept visits.step
            rw [same, List.getElem?_set_self (List.getElem?_eq_some_iff.mp found).1]
          · rw [List.getElem?_set_ne here, found]

end Segments

/-! ## A sequence of modules -/

/-- A module to translate. -/
structure Job where
  opts : Options
  module : Module

/-- One translation after another; the arrays are passed on. -/
def translateModules (arrays : DataArrays) : List Job → Except Failure (List Context)
  | [] => .ok []
  | job :: jobs => do
      let context ← translateModule job.opts arrays job.module
      let contexts ← translateModules context.arrays jobs
      return context :: contexts

/-- The bytes of the memory of a translated module, when the arrays are these. -/
def memoryImage (arrays : DataArrays) (context : Context) : Option (List Byte) :=
  (context.mems[0]?).bind fun mem => (context.llvmModule.values[mem]?).bind fun gv =>
    imageOf arrays (arraySize gv.valueType) gv.initializer

/-- What validation says of memories: there is at most one, of at most 4 GiB, and data
segments are for it. -/
structure OneMemory (module : Module) : Prop where
  listed : module.Listed
  single : module.memories.length ≤ 1
  limited : ∀ memory ∈ module.memories, memory.pages ≤ 65536
  segments : ∀ segment ∈ module.dataSegments, segment.memory = 0 ∧ module.memories ≠ []

/-- No segment of the module changes the array of an earlier module's memory. -/
def SparesAll (earlier : List Context) (arrays : DataArrays) (job : Job) : Prop :=
  ∀ declared, declareEntities job.module (Context.start job.opts arrays job.module) = .ok ((), declared) →
    EachRound visitDataSegment (SparesEarlier earlier) job.module.dataSegments declared

/-- Every module of a sequence spares the ones before it. -/
def EachSpares : List Context → DataArrays → List Job → Prop
  | _, _, [] => True
  | earlier, arrays, job :: jobs => SparesAll earlier arrays job ∧
      ∀ context, translateModule job.opts arrays job.module = .ok context →
        EachSpares (context :: earlier) context.arrays jobs

section Jobs

variable {arrays : DataArrays} {job : Job} {context : Context}

/-- The image of a memory after the data segments, whatever arrays there are. -/
def ownImage (job : Job) : Option (List Byte) :=
  (job.module.memories[0]?).bind fun memory =>
    job.module.dataSegments.foldlM (imageStep job.opts) (List.replicate (memory.pages * 65536) 0)

theorem HasImage.memoryImage {mem size : Nat} {image : List Byte} (holds : HasImage context 0 mem size image) :
    memoryImage context.arrays context = some image := by
  obtain ⟨name, linkage, isConstant, initializer, section_, found, isImage⟩ := holds.variable_
  unfold Modules.memoryImage
  rw [holds.inMems, Option.bind_some, found, Option.bind_some]
  exact isImage

/-- A module without a memory adds no array. -/
theorem translateModule_noMemory (one : OneMemory job.module) (none_ : job.module.memories = [])
    (ran : translateModule job.opts arrays job.module = .ok context) :
    context.mems = [] ∧ context.arrays = arrays := by
  constructor
  · have mems := congrArg (List.length ∘ Spaces.mems) (translateModule_spaces one.listed ran)
    simp only [Function.comp_apply, Context.spaces, List.length_map, List.length_range, none_, List.length_nil] at mems
    exact List.eq_nil_of_length_eq_zero mems
  · obtain ⟨declared, filled, ranDeclare, ranFill, ranFinish⟩ := translateModule_iff.mp ran
    have empty : job.module.dataSegments = [] := by
      refine List.eq_nil_iff_forall_not_mem.mpr fun segment member => ?_
      exact (one.segments segment member).2 none_
    obtain ⟨isDeclared, same⟩ := (declareEntities_declares job.module).run ranDeclare (start_declared _ _ _)
    rw [empty] at ranFill
    cases ranFill
    exact ((finishModule_keeps job.module).run ranFinish isDeclared.typed).2.arrays.trans same.arrays

/-- The phases of the translation of a module with a memory. -/
structure MemoryPhases (job : Job) (arrays : DataArrays) (context : Context) (memory : Memory) : Prop where
  phases : ∃ mem declared filled image,
    declareEntities job.module (Context.start job.opts arrays job.module) = .ok ((), declared) ∧
      job.module.dataSegments.forM visitDataSegment declared = .ok ((), filled) ∧
      HasImage declared 0 mem (memory.pages * 65536) (List.replicate (memory.pages * 65536) 0) ∧
      Typed declared ∧ declared.arrays = arrays ∧ HasImage context 0 mem (memory.pages * 65536) image ∧
      ownImage job = some image ∧ context.arrays = filled.arrays

theorem translateModule_memoryPhases {memory : Memory} (one : OneMemory job.module)
    (single : job.module.memories = [memory]) (ran : translateModule job.opts arrays job.module = .ok context) :
    MemoryPhases job arrays context memory := by
  obtain ⟨declared, filled, ranDeclare, ranFill, ranFinish⟩ := translateModule_iff.mp ran
  obtain ⟨mem, holds, typed, same⟩ := declareEntities_image one.listed single ranDeclare
  have pages := one.limited memory (single ▸ List.mem_singleton_self memory)
  obtain ⟨image, steps, holdsFilled, typedFilled⟩ := visitDataSegments_visits holds typed (by omega)
    (fun segment member => (one.segments segment member).1) ranFill
  have keeps := ((finishModule_keeps job.module).run ranFinish typedFilled).2
  refine ⟨mem, declared, filled, image, ranDeclare, ranFill, holds, typed, same.arrays, keeps.image holdsFilled, ?_,
    keeps.arrays⟩
  rw [ownImage, single]
  rw [same.opts] at steps
  exact steps

theorem OneMemory.cases {module : Module} (one : OneMemory module) :
    module.memories = [] ∨ ∃ memory, module.memories = [memory] := by
  cases memories : module.memories with
  | nil => exact .inl rfl
  | cons memory rest =>
      have single := one.single
      rw [memories, List.length_cons] at single
      exact .inr ⟨memory, by rw [List.eq_nil_of_length_eq_zero (Nat.le_zero.mp (Nat.le_of_succ_le_succ single))]⟩

/-- The image of a module's own memory does not depend on the arrays. -/
theorem translateModule_ownImage (one : OneMemory job.module)
    (ran : translateModule job.opts arrays job.module = .ok context) :
    memoryImage context.arrays context = ownImage job := by
  cases one.cases with
  | inl none_ =>
      rw [memoryImage, (translateModule_noMemory one none_ ran).1, ownImage, none_]
      rfl
  | inr single =>
      obtain ⟨memory, single⟩ := single
      obtain ⟨mem, declared, filled, image, _, _, _, _, _, holds, own, _⟩ :=
        (translateModule_memoryPhases one single ran).phases
      rw [holds.memoryImage, own]

/-- Where a module spares the earlier ones, their images stay. -/
theorem translateModule_spares {earlier : List Context} {other : Context} {bytes : List Byte}
    (one : OneMemory job.module) (spares : SparesAll earlier arrays job) (member : other ∈ earlier)
    (isImage : memoryImage arrays other = some bytes)
    (ran : translateModule job.opts arrays job.module = .ok context) :
    memoryImage context.arrays other = some bytes := by
  cases one.cases with
  | inl none_ => rw [(translateModule_noMemory one none_ ran).2, isImage]
  | inr single =>
      obtain ⟨memory, single⟩ := single
      obtain ⟨mem, declared, filled, image, ranDeclare, ranFill, holds, typed, same, _, _, arraysAfter⟩ :=
        (translateModule_memoryPhases one single ran).phases
      have pages := one.limited memory (single ▸ List.mem_singleton_self memory)
      obtain ⟨otherMem, inMems, isImage⟩ := Option.bind_eq_some_iff.mp isImage
      obtain ⟨gv, found, isImage⟩ := Option.bind_eq_some_iff.mp isImage
      rw [memoryImage, inMems, Option.bind_some, found, Option.bind_some]
      cases initializer : gv.initializer with
      | none => rw [initializer] at isImage; exact isImage
      | some constant =>
          rw [initializer] at isImage
          cases constant with
          | data object =>
              have uses : other.memoryInitializer = some (.data object) := by
                rw [Context.memoryInitializer, inMems, Option.bind_some, Context.initializerOf, found,
                  Option.bind_some, initializer]
              show context.arrays[object]? = some bytes
              rw [arraysAfter]
              exact visitDataSegments_spare holds typed (by omega)
                (fun segment inModule => (one.segments segment inModule).1) (spares declared ranDeclare) member uses
                (same ▸ isImage) ranFill
          | zero type => exact isImage
          | value value => cases isImage
          | pointers elements => cases isImage

/-! ## Runs -/

theorem translateModules_cons {jobs : List Job} {contexts : List Context}
    (ran : translateModules arrays (job :: jobs) = .ok contexts) :
    ∃ context rest, contexts = context :: rest ∧ translateModule job.opts arrays job.module = .ok context ∧
      translateModules context.arrays jobs = .ok rest := by
  unfold translateModules at ran
  cases first : translateModule job.opts arrays job.module with
  | error failure => rw [first] at ran; cases ran
  | ok context =>
      rw [first] at ran
      cases others : translateModules context.arrays jobs with
      | error failure =>
          simp only [bind, Except.bind, others] at ran
          cases ran
      | ok rest =>
          simp only [bind, Except.bind, others] at ran
          cases ran
          exact ⟨context, rest, rfl, rfl, others⟩

theorem translateModules_cons_run {jobs : List Job} {contexts : List Context}
    (first : translateModule job.opts arrays job.module = .ok context)
    (rest : translateModules context.arrays jobs = .ok contexts) :
    translateModules arrays (job :: jobs) = .ok (context :: contexts) := by
  unfold translateModules
  simp only [first, rest, bind, Except.bind]
  rfl

/-- An image from before the run is there after each of its modules. -/
theorem translateModules_spare {jobs : List Job} {contexts earlier : List Context} {other later : Context}
    {bytes : List Byte} {k : Nat} (valid : ∀ job ∈ jobs, OneMemory job.module)
    (spares : EachSpares earlier arrays jobs) (member : other ∈ earlier)
    (isImage : memoryImage arrays other = some bytes) (ran : translateModules arrays jobs = .ok contexts)
    (isLater : contexts[k]? = some later) : memoryImage later.arrays other = some bytes := by
  induction jobs generalizing arrays earlier contexts k with
  | nil =>
      cases ran
      cases isLater
  | cons job jobs ih =>
      obtain ⟨context, rest, rfl, ranFirst, ranRest⟩ := translateModules_cons ran
      have kept : memoryImage context.arrays other = some bytes :=
        translateModule_spares (valid job List.mem_cons_self) spares.1 member isImage ranFirst
      cases k with
      | zero =>
          cases isLater
          exact kept
      | succ k =>
          exact ih (fun other member => valid other (List.mem_cons_of_mem _ member)) (spares.2 context ranFirst)
            (List.mem_cons_of_mem _ member) kept ranRest isLater

/-- A module's memory has its own image at any time after its translation. -/
theorem translateModules_ownImage {jobs : List Job} {contexts earlier : List Context} {later : Context} {i k : Nat}
    (valid : ∀ job ∈ jobs, OneMemory job.module) (spares : EachSpares earlier arrays jobs)
    (ran : translateModules arrays jobs = .ok contexts) (isJob : jobs[i]? = some job)
    (isContext : contexts[i]? = some context) (isLater : contexts[k]? = some later) (order : i ≤ k) :
    memoryImage later.arrays context = ownImage job := by
  induction jobs generalizing arrays earlier contexts i k with
  | nil => cases isJob
  | cons first jobs ih =>
      obtain ⟨firstContext, rest, rfl, ranFirst, ranRest⟩ := translateModules_cons ran
      have validRest : ∀ job ∈ jobs, OneMemory job.module :=
        fun other member => valid other (List.mem_cons_of_mem _ member)
      have sparesRest := spares.2 firstContext ranFirst
      cases i with
      | succ i =>
          cases k with
          | zero => cases order
          | succ k => exact ih validRest sparesRest ranRest isJob isContext isLater (Nat.le_of_succ_le_succ order)
      | zero =>
          cases isJob
          cases isContext
          have one := valid job List.mem_cons_self
          have own := translateModule_ownImage one ranFirst
          cases k with
          | zero =>
              cases isLater
              exact own
          | succ k =>
              cases image : ownImage job with
              | some bytes =>
                  exact translateModules_spare validRest sparesRest List.mem_cons_self (own.trans image) ranRest isLater
              | none =>
                  cases one.cases with
                  | inl none_ =>
                      rw [memoryImage, (translateModule_noMemory one none_ ranFirst).1]
                      rfl
                  | inr single =>
                      obtain ⟨memory, single⟩ := single
                      obtain ⟨_, _, _, _, _, _, _, _, _, _, some_, _⟩ :=
                        (translateModule_memoryPhases one single ranFirst).phases
                      cases image.symm.trans some_

end Jobs

/-- In a context that modules share, each has the memory that it has when it is translated
alone, and keeps it while later modules are translated. -/
def Undisturbed (jobs : List Job) : Prop :=
  ∀ contexts, translateModules [] jobs = .ok contexts → ∀ (i k : Nat) (job : Job) (context later : Context), i ≤ k →
    jobs[i]? = some job → contexts[i]? = some context → contexts[k]? = some later →
      memoryImage later.arrays context = memoryImage context.arrays context ∧
        ∀ alone, translateModule job.opts [] job.module = .ok alone →
          memoryImage later.arrays context = memoryImage alone.arrays alone

/-- Modules are undisturbed where each module spares the earlier ones. -/
theorem translateModules_undisturbed {jobs : List Job} (valid : ∀ job ∈ jobs, OneMemory job.module)
    (spares : EachSpares [] [] jobs) : Undisturbed jobs := by
  intro contexts ran i k job context later order isJob isContext isLater
  have one := valid job (List.mem_of_getElem? isJob)
  have own := translateModules_ownImage valid spares ran isJob isContext isLater order
  refine ⟨?_, fun alone ranAlone => ?_⟩
  · rw [own, translateModules_ownImage valid spares ran isJob isContext isContext (Nat.le_refl i)]
  · rw [own, translateModule_ownImage one ranAlone]

/-! ## Two modules that begin alike -/

/-- The translation of `pageModule`, with this initializer for its memory. -/
def pageContext (arrays : DataArrays) (segments : List DataSegment) (init : Constant) : Context :=
  ⟨⟨false, false, false, false, false, false, false⟩, pageModule segments,
    ⟨[⟨"__notdec_mem0".toList, .internal, .variable (.array (1 * 65536) (.int 8)) false (some init) none⟩], 0⟩,
    arrays, [], [], [0], [], 0, 0, 1, 0, [.memory 0]⟩

section Page

variable {arrays arrays' : DataArrays} {segments : List DataSegment} {segment : DataSegment} {init : Constant}
  {image image' : List Byte} {object : Nat}

theorem pageContext_image (isImage : imageOf arrays (1 * 65536) (some init) = some image)
    (length : image.length = 1 * 65536) : HasImage (pageContext arrays segments init) 0 0 (1 * 65536) image where
  inMems := rfl
  counted := Nat.zero_lt_one
  variable_ := ⟨_, _, _, _, _, rfl, isImage⟩
  length := length

theorem pageContext_first (isZero : segment.memory = 0)
    (written : writeSegment (List.replicate (1 * 65536) 0) segment = some image')
    (interned : getRaw arrays image' = (.data object, arrays')) :
    visitDataSegment segment (pageContext arrays segments (.zero (.array (1 * 65536) (.int 8)))) =
      .ok ((), pageContext arrays' segments (.data object)) := by
  obtain ⟨address, isAddress, copied⟩ := writeSegment_some written
  have holds : HasImage (pageContext arrays segments (.zero (.array (1 * 65536) (.int 8)))) segment.memory 0
      (1 * 65536) (List.replicate (1 * 65536) 0) := by
    rw [isZero]
    exact pageContext_image rfl List.length_replicate
  have run := visitDataSegment_eq holds rfl ⟨rfl, rfl⟩ isAddress
  rw [run, bind_run_ok (copied _)]
  have stored : storeImage 0 (some (.zero (.array (1 * 65536) (.int 8)))) image'
      (pageContext arrays segments (.zero (.array (1 * 65536) (.int 8)))) =
        .ok ((), pageContext (getRaw arrays image').2 segments (getRaw arrays image').1) := rfl
  rw [interned] at stored
  exact stored

theorem pageContext_again (isZero : segment.memory = 0) (found : arrays[object]? = some image)
    (length : image.length = 1 * 65536) (written : writeSegment image segment = some image') :
    visitDataSegment segment (pageContext arrays segments (.data object)) =
      .ok ((), pageContext (arrays.set object image') segments (.data object)) := by
  obtain ⟨address, isAddress, copied⟩ := writeSegment_some written
  have holds : HasImage (pageContext arrays segments (.data object)) segment.memory 0 (1 * 65536) image := by
    rw [isZero]
    exact pageContext_image found length
  have run := visitDataSegment_eq holds rfl ⟨rfl, rfl⟩ isAddress
  rw [run, bind_run_ok (copied _)]
  rfl

end Page

/-- A page whose first bytes are 1 and 0. -/
def pageOne : List Byte := overwrite (List.replicate (1 * 65536) 0) 0 [1]

/-- A page whose first bytes are 1 and 2. -/
def pageOneTwo : List Byte := overwrite pageOne 1 [2]

theorem pageOne_length : pageOne.length = 1 * 65536 := by
  rw [pageOne, overwrite_length (by rw [List.length_replicate]; decide), List.length_replicate]

theorem dataAt_written {image : List Byte} {offset : BitVec 32} {bytes : List Byte} (length : image.length = 1 * 65536)
    (inside : offset.toNat + bytes.length ≤ 1 * 65536) :
    writeSegment image (dataAt offset bytes) = some (overwrite image offset.toNat bytes) := by
  have within : Within (1 * 65536) 0 (dataAt offset bytes) := ⟨rfl, offset, rfl, inside⟩
  exact within.written (by decide) length

/-- The first segment alone. -/
def firstJob : Job := ⟨⟨false, false, false, false, false, false, false⟩, pageModule [dataAt 0 [1]]⟩

/-- The same segment, and then another one. -/
def secondJob : Job := ⟨⟨false, false, false, false, false, false, false⟩, pageModule [dataAt 0 [1], dataAt 1 [2]]⟩

theorem getRaw_pageOne : getRaw [] pageOne = (.data 0, [pageOne]) := rfl

theorem getRaw_pageOne_again : getRaw [pageOne] pageOne = (.data 0, [pageOne]) := by
  have found : [pageOne].findIdx? (· == pageOne) = some 0 := by
    rw [List.findIdx?_cons, if_pos (beq_self_eq_true pageOne)]
  have nonzero : ¬pageOne.all (· == 0) = true := Bool.false_ne_true
  rw [getRaw, if_neg nonzero, found]

/-- A page starts with zeros. -/
def pageStart (arrays : DataArrays) (segments : List DataSegment) : Context :=
  pageContext arrays segments (.zero (.array (1 * 65536) (.int 8)))

theorem firstSegment_written : writeSegment (List.replicate (1 * 65536) 0) (dataAt 0 [1]) = some pageOne :=
  dataAt_written List.length_replicate (by decide)

theorem firstJob_run {arrays : DataArrays} (interned : getRaw arrays pageOne = (.data 0, [pageOne])) :
    translateModule firstJob.opts arrays firstJob.module =
      .ok (pageContext [pageOne] [dataAt 0 [1]] (.data 0)) := by
  have filled : [dataAt 0 [1]].forM visitDataSegment (pageStart arrays [dataAt 0 [1]]) =
      .ok ((), pageContext [pageOne] [dataAt 0 [1]] (.data 0)) :=
    forM_cons_ok.mpr ⟨_, pageContext_first rfl firstSegment_written interned, rfl⟩
  exact translateModule_iff.mpr ⟨_, _, rfl, filled, rfl⟩

theorem secondJob_run : translateModule secondJob.opts [pageOne] secondJob.module =
    .ok (pageContext [pageOneTwo] [dataAt 0 [1], dataAt 1 [2]] (.data 0)) := by
  have written : writeSegment pageOne (dataAt 1 [2]) = some pageOneTwo := dataAt_written pageOne_length (by decide)
  have filled : [dataAt 0 [1], dataAt 1 [2]].forM visitDataSegment (pageStart [pageOne] [dataAt 0 [1], dataAt 1 [2]]) =
      .ok ((), pageContext [pageOneTwo] [dataAt 0 [1], dataAt 1 [2]] (.data 0)) :=
    forM_cons_ok.mpr ⟨_, pageContext_first rfl firstSegment_written getRaw_pageOne_again,
      forM_cons_ok.mpr ⟨_, pageContext_again rfl rfl pageOne_length written, rfl⟩⟩
  exact translateModule_iff.mpr ⟨_, _, rfl, filled, rfl⟩

theorem pageModule_oneMemory {segments : List DataSegment}
    (data : (pageModule segments).dataSegments = segments) (memories : (pageModule segments).definedMemories = [0])
    (funcs : (pageModule segments).definedFuncs = []) (globals : (pageModule segments).definedGlobals = [])
    (tables : (pageModule segments).definedTables = []) (zero : ∀ segment ∈ segments, segment.memory = 0) :
    OneMemory (pageModule segments) where
  listed := ⟨funcs, globals, tables, memories⟩
  single := Nat.le_refl 1
  limited memory member := by
    cases List.mem_singleton.mp member
    decide
  segments segment member := ⟨zero segment (data ▸ member), List.cons_ne_nil _ _⟩

theorem firstJob_oneMemory : OneMemory firstJob.module := by
  refine pageModule_oneMemory rfl rfl rfl rfl rfl fun segment member => ?_
  cases List.mem_singleton.mp member
  rfl

/-- The same module twice: the array is shared and not written. -/
theorem translateModules_undisturbed_twice : Undisturbed [firstJob, firstJob] := by
  have valid : ∀ job ∈ [firstJob, firstJob], OneMemory job.module := by
    intro job member
    simp only [List.mem_cons, List.not_mem_nil, or_self, or_false] at member
    cases member
    exact firstJob_oneMemory
  have spares : ∀ earlier arrays, SparesAll earlier arrays firstJob := by
    intro earlier arrays declared ran
    have started : declareEntities firstJob.module (Context.start firstJob.opts arrays firstJob.module) =
        .ok ((), pageStart arrays [dataAt 0 [1]]) := rfl
    cases ran.symm.trans started
    refine ⟨fun object image shares => ?_, fun _ _ => trivial⟩
    cases shares
  have check : Undisturbed [firstJob, firstJob] :=
    translateModules_undisturbed valid ⟨spares _ _, fun _ _ => ⟨spares _ _, fun _ _ => trivial⟩⟩
  exact check

/-- The second module writes into the array that the first one has. -/
theorem secondJob_disturbs : OneMemory firstJob.module ∧ OneMemory secondJob.module ∧
    ¬Undisturbed [firstJob, secondJob] := by
  refine ⟨firstJob_oneMemory, pageModule_oneMemory rfl rfl rfl rfl rfl fun segment member => ?_, fun undisturbed => ?_⟩
  · simp only [List.mem_cons, List.not_mem_nil, or_false] at member
    cases member with
    | inl first => rw [first]; rfl
    | inr second => rw [second]; rfl
  · have ran : translateModules [] [firstJob, secondJob] = .ok [pageContext [pageOne] [dataAt 0 [1]] (.data 0),
        pageContext [pageOneTwo] [dataAt 0 [1], dataAt 1 [2]] (.data 0)] :=
      translateModules_cons_run (firstJob_run getRaw_pageOne) (translateModules_cons_run secondJob_run rfl)
    have kept := (undisturbed _ ran 0 1 firstJob _ _ (Nat.zero_le 1) rfl rfl rfl).1
    have same : pageOneTwo = pageOne := Option.some.inj kept
    have first : pageOne[1]? = some 0 := by
      rw [pageOne, overwrite_getElem? (by rw [List.length_replicate]; decide), List.getElem?_replicate]
      rfl
    have second : pageOneTwo[1]? = some 2 := by
      rw [pageOneTwo, overwrite_getElem? (by rw [pageOne_length]; decide)]
      rfl
    rw [same, first] at second
    cases second

end WasmToLlvm.Modules
