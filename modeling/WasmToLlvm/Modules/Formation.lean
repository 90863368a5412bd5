import WasmToLlvm.Modules.Declarations

/-!
# Formation of a module

What every object is in every phase, by the entity that it was created for. Contents of
memories and tables change, and functions get their code; all else is kept.
-/

set_option autoImplicit false

namespace WasmToLlvm.Modules

open Llvm Wasm Block Instruction Library

/-- What a global has apart from its name. -/
def Global.contents (global : Global) : ValType × Bool × InitExpr := (global.type, global.mutable_, global.initExpr)

/-- Modules that differ only in the names of their entities, and in what is not visited
through the context. -/
structure Alike (module other : Module) : Prop where
  funcs : other.funcs.map ModuleFunc.func = module.funcs.map ModuleFunc.func
  globals : other.globals.map Global.contents = module.globals.map Global.contents
  tables : other.tables.map Table.elemLimits = module.tables.map Table.elemLimits
  memories : other.memories.map Memory.pageLimits = module.memories.map Memory.pageLimits

theorem Alike.refl (module : Module) : Alike module module := ⟨rfl, rfl, rfl, rfl⟩

theorem Alike.symm {module other : Module} (alike : Alike module other) : Alike other module :=
  ⟨alike.funcs.symm, alike.globals.symm, alike.tables.symm, alike.memories.symm⟩

theorem Alike.trans {module other third : Module} (left : Alike module other) (right : Alike other third) :
    Alike module third :=
  ⟨right.funcs.trans left.funcs, right.globals.trans left.globals, right.tables.trans left.tables,
    right.memories.trans left.memories⟩

/-- An object for an entity: a function may have any code, a memory any contents. A table has
contents only if there are element segments. -/
inductive IsFor (module : Module) : Entity → GlobalObject Body → Prop where
  | func {index : Nat} {func : Func Instr} {params : List Ty} {result : Ty} {body : Option Body}
      (found : (module.funcs[index]?).map ModuleFunc.func = some func)
      (type : funcType? func.decl = some (params, result)) :
      IsFor module (.func index) (.function params result body)
  | importedGlobal {index : Nat} {type : ValType} {mutable_ : Bool} {expr : InitExpr} {converted : Ty}
      (imported : index ∈ module.imported .global)
      (found : (module.globals[index]?).map Global.contents = some (type, mutable_, expr))
      (isType : convertType? type = some converted) :
      IsFor module (.global index) (.variable converted (!mutable_) none none)
  | definedGlobal {index : Nat} {type : ValType} {mutable_ : Bool} {expr : InitExpr} {converted : Ty}
      {constant : Constant} (defined : index ∉ module.imported .global)
      (found : (module.globals[index]?).map Global.contents = some (type, mutable_, expr))
      (isType : convertType? type = some converted) (initial : initialConstant? expr converted = some constant) :
      IsFor module (.global index) (.variable converted (!mutable_) (some constant) none)
  | memory {index : Nat} {memory : Memory} {initializer : Option Constant}
      (found : (module.memories[index]?).map Memory.pageLimits = some memory.pageLimits) :
      IsFor module (.memory index) (.variable (.array (memory.pages * 65536) (.int 8)) false initializer none)
  | table {index : Nat} {limits : Limits} {initializer : Option Constant}
      (found : (module.tables[index]?).map Table.elemLimits = some limits)
      (pointers : ∀ constant, initializer = some constant →
        module.elemSegments ≠ [] ∧ ∃ elements, constant = getPointers elements) :
      IsFor module (.table index) (.variable (.array limits.initial .ptr) false initializer none)
  | dataSegment {count : Nat} {isConstant : Bool} {constant : Constant} {section_ : Name} :
      IsFor module .dataSegment (.variable (.array count (.int 8)) isConstant (some constant) (some section_))
  | intrinsic {params : List Ty} {result : Ty} {body : Option Body} :
      IsFor module .intrinsic (.function params result body)

/-- No type of a value is an array. -/
theorem convertType?_scalar {type : ValType} {converted : Ty} (isType : convertType? type = some converted) :
    ∀ count element, converted ≠ .array count element := by
  intro count element same
  cases type <;> cases isType <;> cases same

/-- The initial value of a global is no table. -/
theorem initialConstant?_scalar {type : ValType} {converted : Ty} {expr : InitExpr} {constant : Constant}
    (isType : convertType? type = some converted) (initial : initialConstant? expr converted = some constant)
    (elements : List (Option Nat)) : constant ≠ getPointers elements := by
  intro same
  unfold initialConstant? at initial
  unfold getPointers at same
  split at initial
  · cases initial
    split at same <;> cases same
  · cases initial
    split at same
    · injection same with isArray
      exact convertType?_scalar isType _ _ isArray
    · cases same
  · cases initial

namespace IsFor

variable {module : Module} {entity : Entity} {object : GlobalObject Body}

theorem setMemory {index : Nat} (isFor : IsFor module (.memory index) object) (constant : Constant) :
    IsFor module (.memory index) (object.setInitializer constant) := by
  cases isFor with
  | memory found => exact .memory found

theorem setTable {index : Nat} (isFor : IsFor module (.table index) object) (elements : List (Option Nat))
    (segments : module.elemSegments ≠ []) :
    IsFor module (.table index) (object.setInitializer (getPointers elements)) := by
  cases isFor with
  | table found pointers =>
      exact .table found fun constant same => ⟨segments, elements, (Option.some.inj same).symm⟩

theorem setBody (isFor : IsFor module entity object) (code : Body) : IsFor module entity (object.setBody code) := by
  cases isFor with
  | func found type => exact .func found type
  | importedGlobal imported found isType => exact .importedGlobal imported found isType
  | definedGlobal defined found isType initial => exact .definedGlobal defined found isType initial
  | memory found => exact .memory found
  | table found pointers => exact .table found pointers
  | dataSegment => exact .dataSegment
  | intrinsic => exact .intrinsic

/-- The contents of a table are replaced wherever they stand. -/
theorem replace (isFor : IsFor module entity object) (old new : List (Option Nat))
    (segments : module.elemSegments ≠ []) :
    IsFor module entity (if object.initializer = some (getPointers old) then object.setInitializer (getPointers new)
      else object) := by
  cases isFor with
  | func found type => exact .func found type
  | importedGlobal imported found isType => exact .importedGlobal imported found isType
  | definedGlobal defined found isType initial =>
      have other := initialConstant?_scalar isType initial old
      split
      · rename_i same
        exact absurd (Option.some.inj same) other
      · exact .definedGlobal defined found isType initial
  | memory found =>
      split
      · exact .memory found
      · exact .memory found
  | table found pointers =>
      split
      · exact .table found fun constant same => ⟨segments, new, (Option.some.inj same).symm⟩
      · exact .table found pointers
  | dataSegment =>
      split
      · exact .dataSegment
      · exact .dataSegment
  | intrinsic => exact .intrinsic

end IsFor

/-- The code of a function. -/
def Context.codeAt (context : Context) (id : Nat) : Option Body :=
  (context.llvmModule.objects[id]?).bind GlobalObject.body

/-- Every object is one for its entity. -/
structure Formed (opts : Options) (module : Module) (context : Context) : Prop where
  opts : context.opts = opts
  alike : Alike module context.module
  created : context.entities.length = context.llvmModule.values.length
  counted : context.funcs.length = context.funcIndex
  objects : ∀ (id : Nat) (entity : Entity) (object : GlobalObject Body), context.entities[id]? = some entity →
    context.llvmModule.objects[id]? = some object → IsFor module entity object
  mems : ∀ id ∈ context.mems, ∃ index, context.entities[id]? = some (.memory index)
  tables : ∀ id ∈ context.tables, ∃ index, context.entities[id]? = some (.table index)

/-- Objects stay formed, and functions keep their code. -/
def formGrading (opts : Options) (module : Module) : Grading Context Unit :=
  .ofPreorder (fun before after => Formed opts module before →
      Formed opts module after ∧ ∀ id, after.codeAt id = before.codeAt id)
    (fun _ formed => ⟨formed, fun _ => rfl⟩)
    fun left right formed => ⟨(right (left formed).1).1,
      fun id => ((right (left formed).1).2 id).trans ((left formed).2 id)⟩

/-- A computation that forms objects and no code. -/
abbrev Forms (opts : Options) (module : Module) {α : Type} (before : Context) (emit : Translate α) : Prop :=
  Effect (formGrading opts module) before emit ()

section Changes

variable {opts : Options} {module : Module} {before after : Context}

/-- An object is changed into one for the same entity. -/
theorem Formed.change {f : Nat → GlobalObject Body → GlobalObject Body} (formed : Formed opts module before)
    (context : after = { before with llvmModule := after.llvmModule, arrays := after.arrays })
    (objects : ∀ id, after.llvmModule.objects[id]? = (before.llvmModule.objects[id]?).map (f id))
    (kept : ∀ id entity object, before.entities[id]? = some entity → before.llvmModule.objects[id]? = some object →
      IsFor module entity object → IsFor module entity (f id object)) :
    Formed opts module after := by
  have lengths : after.llvmModule.objects.length = before.llvmModule.objects.length := by
    refine Nat.le_antisymm ?_ ?_
    · have outside := objects before.llvmModule.objects.length
      rw [List.getElem?_eq_none (Nat.le_refl _)] at outside
      exact List.getElem?_eq_none_iff.mp outside
    · have outside := objects after.llvmModule.objects.length
      rw [List.getElem?_eq_none (Nat.le_refl _)] at outside
      exact List.getElem?_eq_none_iff.mp (Option.map_eq_none_iff.mp outside.symm)
  rw [context]
  refine ⟨formed.opts, formed.alike, ?_, formed.counted, fun id entity object isEntity isObject => ?_, formed.mems,
    formed.tables⟩
  · rw [← Llvm.Module.objects_length, lengths, Llvm.Module.objects_length]
    exact formed.created
  · obtain ⟨old, found, same⟩ := Option.map_eq_some_iff.mp ((objects id).symm.trans isObject)
    rw [← same]
    exact kept id entity old isEntity found (formed.objects id entity old isEntity found)

theorem codeAt_change {f : Nat → GlobalObject Body → GlobalObject Body}
    (objects : ∀ id, after.llvmModule.objects[id]? = (before.llvmModule.objects[id]?).map (f id))
    (bodies : ∀ id object, (f id object).body = object.body) (id : Nat) : after.codeAt id = before.codeAt id := by
  unfold Context.codeAt
  rw [objects id]
  cases before.llvmModule.objects[id]? with
  | none => rfl
  | some object => exact bodies id object

theorem forms_change {update : Context → Context} {f : Nat → GlobalObject Body → GlobalObject Body}
    (context : update before = { before with llvmModule := (update before).llvmModule, arrays := (update before).arrays })
    (objects : ∀ id, (update before).llvmModule.objects[id]? = (before.llvmModule.objects[id]?).map (f id))
    (kept : ∀ id entity object, before.entities[id]? = some entity → before.llvmModule.objects[id]? = some object →
      IsFor module entity object → IsFor module entity (f id object))
    (bodies : ∀ id object, (f id object).body = object.body) : Forms opts module before (modify update) :=
  .modify fun formed => ⟨formed.change context objects kept, codeAt_change objects bodies⟩

theorem Relabels.forms (relabels : Relabels before after) (formed : Formed opts module before) :
    Formed opts module after ∧ ∀ id, after.codeAt id = before.codeAt id := by
  have same : ∀ id : Nat, after.llvmModule.objects[id]? = (before.llvmModule.objects[id]?).map fun object => object := by
    intro id
    rw [relabels.objects, Option.map_id']
  have context : after = { before with llvmModule := after.llvmModule, arrays := after.arrays } := by
    rw [relabels.context]
  exact ⟨formed.change (f := fun _ object => object) context same fun _ _ _ _ _ isFor => isFor,
    codeAt_change same fun _ _ => rfl⟩

theorem KeepsObjects.forms {α : Type} {emit : Translate α} (keeps : KeepsObjects before emit) :
    Forms opts module before emit :=
  ⟨fun ran formed => (keeps.run ran).forms formed⟩

section Creation

variable {entity : Entity} {object : GlobalObject Body}

theorem entities_older {id : Nat} {other : Entity} (isOther : before.entities[id]? = some other) :
    (before.entities ++ [entity])[id]? = some other :=
  (List.getElem?_append_left (List.getElem?_eq_some_iff.mp isOther).1).trans isOther

theorem Formed.getElem?_created (formed : Formed opts module before) :
    (before.entities ++ [entity])[before.llvmModule.values.length]? = some entity := by
  rw [← formed.created, List.getElem?_concat_length]

theorem Formed.record_mems (formed : Formed opts module before) {id : Nat}
    (member : id ∈ (before.record entity before.llvmModule.values.length).mems) :
    ∃ index, (before.entities ++ [entity])[id]? = some (.memory index) := by
  cases entity with
  | memory index =>
      cases List.mem_append.mp member with
      | inl old => exact (formed.mems id old).imp fun _ => entities_older
      | inr new => exact ⟨index, (List.mem_singleton.mp new).symm ▸ formed.getElem?_created⟩
  | func index => exact (formed.mems id member).imp fun _ => entities_older
  | global index => exact (formed.mems id member).imp fun _ => entities_older
  | table index => exact (formed.mems id member).imp fun _ => entities_older
  | dataSegment => exact (formed.mems id member).imp fun _ => entities_older
  | intrinsic => exact (formed.mems id member).imp fun _ => entities_older

theorem Formed.record_tables (formed : Formed opts module before) {id : Nat}
    (member : id ∈ (before.record entity before.llvmModule.values.length).tables) :
    ∃ index, (before.entities ++ [entity])[id]? = some (.table index) := by
  cases entity with
  | table index =>
      cases List.mem_append.mp member with
      | inl old => exact (formed.tables id old).imp fun _ => entities_older
      | inr new => exact ⟨index, (List.mem_singleton.mp new).symm ▸ formed.getElem?_created⟩
  | func index => exact (formed.tables id member).imp fun _ => entities_older
  | global index => exact (formed.tables id member).imp fun _ => entities_older
  | memory index => exact (formed.tables id member).imp fun _ => entities_older
  | dataSegment => exact (formed.tables id member).imp fun _ => entities_older
  | intrinsic => exact (formed.tables id member).imp fun _ => entities_older

/-- The new object is the last one, and the new entity is its entity. -/
theorem Creates.isFor (creates : Creates before entity object after) (formed : Formed opts module before)
    (isFor : IsFor module entity object) {id : Nat} {other : Entity} {candidate : GlobalObject Body}
    (isOther : (before.entities ++ [entity])[id]? = some other)
    (isObject : after.llvmModule.objects[id]? = some candidate) : IsFor module other candidate := by
  have lengths : before.entities.length = before.llvmModule.objects.length := by
    rw [formed.created, Llvm.Module.objects_length]
  rw [creates.objects] at isObject
  by_cases inside : id < before.entities.length
  · rw [List.getElem?_append_left inside] at isOther
    rw [List.getElem?_append_left (lengths ▸ inside)] at isObject
    exact formed.objects id other candidate isOther isObject
  · have bound := (List.getElem?_eq_some_iff.mp isOther).1
    rw [List.length_append, List.length_singleton] at bound
    have last : id = before.entities.length := by omega
    rw [last, List.getElem?_concat_length] at isOther
    rw [last, lengths, List.getElem?_concat_length] at isObject
    cases isOther
    cases isObject
    exact isFor

theorem Creates.codeAt (creates : Creates before entity object after) (bodiless : object.body = none) (id : Nat) :
    after.codeAt id = before.codeAt id := by
  unfold Context.codeAt
  rw [creates.objects]
  by_cases inside : id < before.llvmModule.objects.length
  · rw [List.getElem?_append_left inside]
  · have outside : before.llvmModule.objects[id]? = none := List.getElem?_eq_none (Nat.le_of_not_lt inside)
    rw [List.getElem?_append_right (Nat.le_of_not_lt inside), outside]
    cases id - before.llvmModule.objects.length with
    | zero => exact bodiless
    | succ rest => rfl

/-- A new object is one for its entity, and has no code. -/
theorem Creates.forms (creates : Creates before entity object after) (isFor : IsFor module entity object)
    (bodiless : object.body = none) (formed : Formed opts module before) :
    Formed opts module after ∧ ∀ id, after.codeAt id = before.codeAt id := by
  have parts : (before.record entity before.llvmModule.values.length).opts = before.opts ∧
      (before.record entity before.llvmModule.values.length).module = before.module := by
    cases entity <;> exact ⟨rfl, rfl⟩
  have created : (before.entities ++ [entity]).length = after.llvmModule.values.length := by
    rw [← Llvm.Module.objects_length, creates.objects, List.length_append, List.length_append, formed.created,
      Llvm.Module.objects_length]
    rfl
  have counted : (before.record entity before.llvmModule.values.length).funcs.length =
      (before.record entity before.llvmModule.values.length).funcIndex := by
    cases entity with
    | func index => exact (List.length_append ..).trans (congrArg (· + 1) formed.counted)
    | _ => exact formed.counted
  refine ⟨?_, creates.codeAt bodiless⟩
  rw [creates.context]
  exact ⟨parts.1.trans formed.opts, parts.2.symm ▸ formed.alike, created, counted,
    fun _ _ _ isOther isObject => creates.isFor formed isFor isOther isObject,
    fun _ member => formed.record_mems member, fun _ member => formed.record_tables member⟩

end Creation

end Changes

/-! ## Steps -/

section Steps

variable {opts : Options} {module : Module} {before after : Context}

/-- An import changes the name of its entity. -/
theorem Alike.nameImport (entity : Import) (alike : Alike module before.module)
    (ran : nameImport entity before = .ok ((), after)) : Alike module after.module := by
  obtain ⟨moduleName, fieldName, kind, index⟩ := entity
  cases ran
  cases kind with
  | func =>
      have same : ∀ func : ModuleFunc, ModuleFunc.func { func with
          name := nameIfEmpty func.name (moduleName ++ '.' :: fieldName) } = func.func := fun _ => rfl
      exact ⟨(map_modify_same same before.module.funcs index).trans alike.funcs, alike.globals, alike.tables, alike.memories⟩
  | memory =>
      have same : ∀ memory : Memory, Memory.pageLimits { memory with
          name := nameIfEmpty memory.name (moduleName ++ '.' :: fieldName) } = memory.pageLimits := fun _ => rfl
      exact ⟨alike.funcs, alike.globals, alike.tables,
        (map_modify_same same before.module.memories index).trans alike.memories⟩
  | global =>
      have same : ∀ global : Global, Global.contents { global with
          name := nameIfEmpty global.name (moduleName ++ '.' :: fieldName) } = global.contents := fun _ => rfl
      exact ⟨alike.funcs, (map_modify_same same before.module.globals index).trans alike.globals, alike.tables,
        alike.memories⟩
  | table =>
      have same : ∀ table : Table, Table.elemLimits { table with
          name := nameIfEmpty table.name (moduleName ++ '.' :: fieldName) } = table.elemLimits := fun _ => rfl
      exact ⟨alike.funcs, alike.globals, (map_modify_same same before.module.tables index).trans alike.tables,
        alike.memories⟩
  | tag => exact alike

theorem nameImport_forms (entity : Import) : Forms opts module before (nameImport entity) where
  run ran formed := by
    have alike := formed.alike.nameImport entity ran
    cases ran
    exact ⟨⟨formed.opts, alike, formed.created, formed.counted, formed.objects, formed.mems, formed.tables⟩, fun _ => rfl⟩

theorem declareFunc_forms (index : Nat) (isExternal : Bool) :
    Forms opts module before (declareFunc index isExternal) where
  run ran formed := by
    obtain ⟨func, params, result, found, type, _, creates⟩ := declareFunc_creates ran
    refine creates.forms (.func ?_ type) rfl formed
    rw [← List.getElem?_map, ← formed.alike.funcs, List.getElem?_map, found]
    rfl

/-- Exactly the imported globals are external. -/
theorem visitGlobal_forms {index : Nat} {isExternal : Bool}
    (imported : index ∈ module.imported .global ↔ isExternal = true) :
    Forms opts module before (visitGlobal index isExternal) where
  run ran formed := by
    obtain ⟨global, type, initializer, found, isType, initial, creates⟩ := visitGlobal_creates ran
    have contents : (module.globals[index]?).map Global.contents = some global.contents := by
      rw [← List.getElem?_map, ← formed.alike.globals, List.getElem?_map, found]
      rfl
    cases isExternal with
    | true =>
        have none_ : initializer = none := initial
        subst none_
        exact creates.forms (.importedGlobal (imported.mpr rfl) contents isType) rfl formed
    | false =>
        obtain ⟨constant, initial, same⟩ := initial
        subst same
        have defined : index ∉ module.imported .global := fun member => nomatch imported.mp member
        exact creates.forms (.definedGlobal defined contents isType initial) rfl formed

theorem visitTable_forms (index : Nat) (isExternal : Bool) : Forms opts module before (visitTable index isExternal) where
  run ran formed := by
    obtain ⟨table, found, creates⟩ := visitTable_creates ran
    refine creates.forms (.table ?_ fun _ same => nomatch same) rfl formed
    rw [← List.getElem?_map, ← formed.alike.tables, List.getElem?_map, found]
    rfl

theorem declareMemory_forms (index : Nat) (isExternal : Bool) :
    Forms opts module before (declareMemory index isExternal) where
  run ran formed := by
    obtain ⟨memory, found, creates⟩ := declareMemory_creates ran
    refine creates.forms (.memory ?_) rfl formed
    rw [← List.getElem?_map, ← formed.alike.memories, List.getElem?_map, found]
    rfl

theorem getRawData_forms {bytes : List Byte} : Forms opts module before (getRawData bytes) where
  run ran formed := by
    cases ran
    have same : ∀ id : Nat, before.llvmModule.objects[id]? =
        (before.llvmModule.objects[id]?).map fun object => object := fun id => Option.map_id'.symm
    exact ⟨formed.change (f := fun _ object => object) rfl same fun _ _ _ _ _ isFor => isFor, fun _ => rfl⟩

/-- The object in a place is changed into one for the same entity. -/
theorem updateObject_forms {change : Llvm.Module Body → Llvm.Module Body} {f : GlobalObject Body → GlobalObject Body}
    {id : Nat} {entity : Entity} (objects : (change before.llvmModule).objects = before.llvmModule.objects.modify id f)
    (found : Formed opts module before → before.entities[id]? = some entity)
    (kept : ∀ object, IsFor module entity object → IsFor module entity (f object))
    (bodies : ∀ object, (f object).body = object.body) : Forms opts module before (updateModule change) where
  run ran formed := by
    have isEntity := found formed
    refine Effect.run (forms_change (f := fun other object => if id = other then f object else object) rfl
      (fun other => ?_) (fun other candidate object isCandidate _ isFor => ?_) fun other object => ?_) ran formed
    · show (change before.llvmModule).objects[other]? = _
      rw [objects, List.getElem?_modify]
      rfl
    · by_cases here : id = other
      · subst here
        cases isEntity.symm.trans isCandidate
        simp only [if_true]
        exact kept object isFor
      · rw [if_neg here]
        exact isFor
    · split
      · exact bodies object
      · rfl

theorem setMemory_forms {mem : Nat} {constant : Constant} (member : mem ∈ before.mems) :
    Forms opts module before (updateModule fun llvmModule =>
      llvmModule.update mem fun value => value.setInitializer constant) where
  run ran formed := by
    obtain ⟨index, isMemory⟩ := formed.mems mem member
    exact Effect.run (updateObject_forms (Llvm.Module.objects_setInitializer ..) (fun _ => isMemory)
      (fun _ isFor => isFor.setMemory constant) fun _ => GlobalObject.body_setInitializer ..) ran formed

theorem createSplitSegment_forms (memory : GlobalValue Body) (segment : DataSegment) (offset : Option Value) :
    Forms opts module before (createSplitSegment memory segment offset) := by
  unfold createSplitSegment
  split
  · refine getRawData_forms.skip fun {init _} _ => Effect.skip ?_ fun _ => .pure _
    refine ⟨fun ran formed => ?_⟩
    cases ran
    exact Creates.forms ⟨rfl, Llvm.Module.objects_create ..⟩ .dataSegment rfl formed
  · exact .throw _

theorem visitDataSegment_forms (segment : DataSegment) : Forms opts module before (visitDataSegment segment) := by
  unfold visitDataSegment
  refine .get (.ite (fun _ => .throw _) fun _ => at_reads.skip fun {mem _} ranMem => ?_)
  obtain ⟨found, same⟩ := at_ok ranMem
  cases same
  refine at_reads.skip fun ranMemory => ?_
  cases at_reads.same ranMemory
  refine visitInitExpr_reads.skip fun {offset _} ranOffset => ?_
  cases visitInitExpr_reads.same ranOffset
  refine .ite (fun _ => createSplitSegment_forms ..) fun _ => .ite (fun _ => .pure _) fun _ =>
    unwrapIntConstant_reads.skip fun ranAddress => ?_
  cases unwrapIntConstant_reads.same ranAddress
  have member := List.mem_of_getElem? found
  have fresh : ∀ (size : Nat) (offset : BitVec 64), Forms opts module before (do
      let init ← createMemInitializer size offset segment.data
      updateModule fun llvmModule => llvmModule.update mem fun value => value.setInitializer init) := by
    intro size offset
    unfold createMemInitializer
    refine Effect.skip (copyData_reads.skip fun _ => getRawData_forms) fun ran => setMemory_forms ?_
    obtain ⟨buffer, middle, ranCopy, ranRaw⟩ := bind_ok.mp ran
    cases copyData_reads.same ranCopy
    cases ranRaw
    exact member
  split
  · exact fresh _ _
  · exact fresh _ _
  · unfold modMemInitializer
    refine .get (at_reads.skip fun _ => copyData_reads.skip fun _ => ?_)
    refine forms_change (f := fun _ object => object) rfl (fun _ => Option.map_id'.symm) (fun _ _ _ _ _ isFor => isFor)
      fun _ _ => rfl
  · exact .throw _

theorem getOrInsertDeclaration_forms (declaration : Declaration) :
    Forms opts module before (getOrInsertDeclaration declaration) := by
  refine getOrInsertDeclaration_effect declaration (fun _ => ?_) fun _ _ => ?_
  · refine Effect.skip ⟨fun ran formed => ?_⟩ fun _ => .pure _
    cases ran
    exact Creates.forms ⟨rfl, Llvm.Module.objects_create ..⟩ .intrinsic rfl formed
  · exact (updateModule_relabels (Llvm.Module.objects_setName ..)).forms

theorem visitElem_forms {elem : ElemSegment} (segments : module.elemSegments ≠ []) :
    Forms opts module before (visitElem elem) where
  run ran formed := by
    obtain ⟨id, gv, init, builds, replaces⟩ := visitElem_ok ran
    obtain ⟨index, isTable⟩ := formed.tables id (List.mem_of_getElem? builds.inTables)
    obtain ⟨offset, slots, _, isInit⟩ := builds.slots
    subst isInit
    cases replaces with
    | set empty =>
        have sets : Forms opts module before (updateModule fun llvmModule =>
            llvmModule.update id fun value => value.setInitializer (getPointers slots)) :=
          updateObject_forms (Llvm.Module.objects_setInitializer ..) (fun _ => isTable)
            (fun _ isFor => isFor.setTable slots segments) fun _ => GlobalObject.body_setInitializer ..
        exact sets.run rfl formed
    | unused full unused => exact ⟨formed, fun _ => rfl⟩
    | @everywhere old full used different =>
        have object : before.llvmModule.objects[id]? = some gv.object := by
          rw [Llvm.Module.objects_getElem?, builds.found]
          rfl
        have pointers : ∃ elements, old = getPointers elements := by
          have isFor := formed.objects id _ _ isTable object
          rw [gv.initializer_eq] at full
          generalize gv.object = tableObject at isFor full
          cases isFor with
          | table found pointers => exact (pointers _ full).2
        obtain ⟨elements, same⟩ := pointers
        subst same
        have replaces : Forms opts module before (updateModule fun llvmModule =>
            llvmModule.replaceAllUsesWith (getPointers elements) (getPointers slots)) := by
          refine forms_change (f := fun _ object => if object.initializer = some (getPointers elements) then
              object.setInitializer (getPointers slots) else object)
            rfl (fun other => ?_) (fun _ _ _ _ _ isFor => isFor.replace elements slots segments) fun _ object => ?_
          · show (before.llvmModule.replaceAllUsesWith _ _).objects[other]? = _
            rw [Llvm.Module.objects_replaceAllUsesWith, List.getElem?_map]
          · split
            · exact GlobalObject.body_setInitializer ..
            · rfl
        exact replaces.run rfl formed

end Steps

/-! ## Phases -/

section Phases

variable {opts : Options} {module : Module} {before after : Context}

theorem visitImport_forms {entity : Import} (member : entity ∈ module.imports) :
    Forms opts module before (visitImport entity) := by
  have imported : entity.kind = .global → entity.index ∈ module.imported .global := by
    intro isGlobal
    refine List.mem_map.mpr ⟨entity, List.mem_filter.mpr ⟨member, ?_⟩, rfl⟩
    exact decide_eq_true isGlobal
  unfold visitImport
  refine (nameImport_forms entity).skip fun _ => ?_
  cases kind : entity.kind with
  | func => exact (declareFunc_forms _ _).skip fun _ => .pure _
  | memory => exact declareMemory_forms _ _
  | global => exact visitGlobal_forms (iff_of_true (imported kind) rfl)
  | table => exact visitTable_forms _ _
  | tag => exact .pure _

theorem visitGlobals_forms (indices : List Nat) :
    Forms opts module before (visitGlobals (module.imported .global) indices) := by
  induction indices generalizing before with
  | nil => exact .pure _
  | cons index rest ih =>
      unfold visitGlobals
      by_cases member : index ∈ module.imported .global
      · rw [if_neg (not_not.mpr member)]
        exact ih
      · rw [if_pos member]
        exact (visitGlobal_forms (iff_of_false member Bool.false_ne_true)).skip fun _ => ih

theorem declareEntities_forms : Forms opts module before (declareEntities module) := by
  unfold declareEntities
  refine .get (.ite (fun _ => .throw _) fun _ => ?_)
  refine (Effect.forM_one fun entity member _ => visitImport_forms member).skip fun _ => ?_
  exact (visitGlobals_forms _).skip fun _ => .forM_one fun index _ _ => declareMemory_forms index false

theorem visitDataSegments_form (segments : List DataSegment) :
    Forms opts module before (segments.forM visitDataSegment) :=
  .forM_one fun segment _ _ => visitDataSegment_forms segment

theorem declareFuncs_forms (indices : List Nat) : Forms opts module before (declareFuncs indices) := by
  induction indices generalizing before with
  | nil => exact .pure _
  | cons index rest ih =>
      unfold declareFuncs
      refine (declareFunc_forms index false).skip fun _ => ?_
      exact (fixNames_relabels _).forms.skip fun _ => ih.skip fun _ => .pure _

theorem visitTables_form (indices : List Nat) :
    Forms opts module before (indices.forM fun index => visitTable index false) :=
  .forM_one fun index _ _ => visitTable_forms index false

theorem nameFunctions_forms : Forms opts module before (nameFunctions module) :=
  (nameFunctions_relabels module).forms

theorem fillTables_forms : Forms opts module before (fillTables module) :=
  fillTables_effect module fun _ member _ => visitElem_forms (List.ne_nil_of_mem member)

theorem start_formed (opts : Options) (arrays : DataArrays) (module : Module) :
    Formed opts module (Context.start opts arrays module) :=
  ⟨rfl, .refl module, rfl, rfl, nofun, nofun, nofun⟩

end Phases

end WasmToLlvm.Modules
