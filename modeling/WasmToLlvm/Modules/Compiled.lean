import WasmToLlvm.Modules.FixedNames
import WasmToLlvm.Modules.Formation
import WasmToLlvm.Modules.MemoryImage

/-!
# Compiled modules

The functions of a translated module: each has the code of its own body, translated in the
index spaces of the module, unless it is imported.
-/

set_option autoImplicit false

namespace WasmToLlvm.Modules

open Llvm Wasm Block Instruction Library

/-! ## Index spaces -/

/-- The number of elements of a table. -/
def Module.tableSize (module : Module) (index : Nat) : Nat :=
  ((module.tables[index]?).map fun table => table.elemLimits.initial).getD 0

/-- The index spaces of a module as its functions see them. A table that is imported is there
twice. -/
def Module.environment (opts : Options) (module : Module) : Environment where
  genIntToPtr := opts.genIntToPtr
  funcs := module.funcs.map fun func => func.func.decl
  globs := module.globals.map Global.type
  mems := module.memories.map fun memory => memory.pages * 65536
  tables := (module.imported .table ++ List.range module.tables.length).map module.tableSize

/-- Memories and tables are in their places. -/
structure Prepared (opts : Options) (module : Module) (context : Context) : Prop where
  formed : Formed opts module context
  mems : context.mems.map (context.entities[·]?) =
    (List.range module.memories.length).map fun index => some (.memory index)
  tables : context.tables.map (context.entities[·]?) =
    (module.imported .table ++ List.range module.tables.length).map fun index => some (.table index)

section Environment

variable {opts : Options} {module : Module} {before after context : Context}

/-- Every entity has an object. -/
theorem Formed.object (formed : Formed opts module context) {id : Nat} {entity : Entity}
    (isEntity : context.entities[id]? = some entity) :
    ∃ object, context.llvmModule.objects[id]? = some object ∧ IsFor module entity object := by
  have inside := (List.getElem?_eq_some_iff.mp isEntity).1
  rw [formed.created, ← Llvm.Module.objects_length] at inside
  have found := List.getElem?_eq_getElem inside
  exact ⟨_, found, formed.objects id entity _ isEntity found⟩

theorem Formed.size_eq (formed : Formed opts module context) {id : Nat} {entity : Entity}
    (isEntity : context.entities[id]? = some entity) : ∃ object, IsFor module entity object ∧
      arraySize (((context.llvmModule.values[id]?).map GlobalValue.valueType).getD .void) = arraySize object.valueType := by
  obtain ⟨object, found, isFor⟩ := formed.object isEntity
  rw [Llvm.Module.objects_getElem?] at found
  obtain ⟨gv, foundValue, same⟩ := Option.map_eq_some_iff.mp found
  refine ⟨object, isFor, ?_⟩
  rw [foundValue, ← same]
  rfl

/-- Functions are translated in the index spaces of the module. -/
theorem Prepared.environment_eq (prepared : Prepared opts module context) :
    context.environment = module.environment opts := by
  have formed := prepared.formed
  have funcs : context.module.funcs.map (fun func => func.func.decl) = module.funcs.map fun func => func.func.decl := by
    have same := congrArg (List.map fun func : Func Instr => func.decl) formed.alike.funcs
    rwa [List.map_map, List.map_map] at same
  have globs : context.module.globals.map Global.type = module.globals.map Global.type := by
    have same := congrArg (List.map fun contents : ValType × Bool × InitExpr => contents.1) formed.alike.globals
    rwa [List.map_map, List.map_map] at same
  have mems : context.mems.map (fun id => arraySize (((context.llvmModule.values[id]?).map
      GlobalValue.valueType).getD .void)) = module.memories.map fun memory => memory.pages * 65536 := by
    rw [← range_map_getElem? module.memories (fun memory => memory.pages * 65536) 0]
    refine map_eq_of_forall₂ ((forall₂_of_map_eq prepared.mems).imp fun id index isEntity => ?_)
    obtain ⟨object, isFor, size⟩ := formed.size_eq isEntity
    rw [size]
    cases isFor with
    | memory found =>
        obtain ⟨own, foundOwn, sameLimits⟩ := Option.map_eq_some_iff.mp found
        rw [foundOwn]
        show Memory.pages _ * 65536 = own.pages * 65536
        rw [Memory.pages, Memory.pages, sameLimits]
  have tables : context.tables.map (fun id => arraySize (((context.llvmModule.values[id]?).map
      GlobalValue.valueType).getD .void)) =
        (module.imported .table ++ List.range module.tables.length).map module.tableSize := by
    refine map_eq_of_forall₂ ((forall₂_of_map_eq prepared.tables).imp fun id index isEntity => ?_)
    obtain ⟨object, isFor, size⟩ := formed.size_eq isEntity
    rw [size]
    cases isFor with
    | table found pointers =>
        obtain ⟨own, foundOwn, sameLimits⟩ := Option.map_eq_some_iff.mp found
        rw [Module.tableSize, foundOwn, ← sameLimits]
        rfl
  unfold Context.environment Module.environment
  rw [funcs, globs, mems, tables, formed.opts]

end Environment

/-! ## Bodies -/

section Bodies

variable {opts : Options} {module : Module} {before after : Context}

/-- A function gets the translation of its own body. -/
def CodeOf (opts : Options) (module : Module) (index : Nat) (code : Body) : Prop :=
  ∃ func translated, (module.funcs[index]?).map ModuleFunc.func = some func ∧
    Block.visitFunc (instructions (module.environment opts)) func = .ok translated ∧ code = translated.function

/-- Only the LLVM module changes, where values may be added. -/
structure Grows (before after : Context) : Prop where
  context : after = { before with llvmModule := after.llvmModule, entities := after.entities }
  entities : before.entities <+: after.entities

theorem Grows.refl {context : Context} : Grows context context := ⟨rfl, List.prefix_rfl⟩

theorem Grows.trans {first second third : Context} (left : Grows first second) (right : Grows second third) :
    Grows first third :=
  ⟨by rw [right.context, left.context], left.entities.trans right.entities⟩

def growGrading : Grading Context Unit :=
  .ofPreorder Grows (fun _ => .refl) Grows.trans

theorem Grows.entity {id : Nat} {entity : Entity} (grows : Grows before after)
    (isEntity : before.entities[id]? = some entity) : after.entities[id]? = some entity := by
  obtain ⟨added, whole⟩ := grows.entities
  rw [← whole]
  exact (List.getElem?_append_left (List.getElem?_eq_some_iff.mp isEntity).1).trans isEntity

theorem grows_updateModule {change : Llvm.Module Body → Llvm.Module Body} :
    Effect growGrading before (updateModule change) () :=
  .modify ⟨rfl, List.prefix_rfl⟩

theorem getOrInsertDeclaration_grows (declaration : Declaration) :
    Effect growGrading before (getOrInsertDeclaration declaration) () := by
  refine getOrInsertDeclaration_effect declaration (fun _ => ?_) fun _ _ => grows_updateModule
  refine Effect.skip ⟨fun ran => ?_⟩ fun _ => .pure _
  cases ran
  exact ⟨rfl, List.prefix_append ..⟩

/-- The functions get bodies, and others keep theirs. -/
structure SetsBodies (opts : Options) (module : Module) (indices functions : List Nat) (before after : Context) : Prop where
  prepared : Prepared opts module after
  grows : Grows before after
  others : ∀ id ∉ functions, after.codeAt id = before.codeAt id
  bodies : List.Forall₂ (fun index function => ∃ code, CodeOf opts module index code ∧
    ∀ own : Nat, before.entities[function]? = some (.func own) → after.codeAt function = some code) indices functions

theorem Prepared.grow (prepared : Prepared opts module before) (grows : Grows before after)
    (formed : Formed opts module after) : Prepared opts module after := by
  have older : ∀ ids : List Nat, (∀ id ∈ ids, ∃ entity, before.entities[id]? = some entity) →
      ids.map (after.entities[·]?) = ids.map (before.entities[·]?) := by
    intro ids found
    refine List.map_congr_left fun id member => ?_
    obtain ⟨entity, isEntity⟩ := found id member
    exact (grows.entity isEntity).trans isEntity.symm
  have mems : after.mems = before.mems := by rw [grows.context]
  have tables : after.tables = before.tables := by rw [grows.context]
  refine ⟨formed, ?_, ?_⟩
  · rw [mems, older before.mems fun id member => (prepared.formed.mems id member).imp' _ fun _ isEntity => isEntity]
    exact prepared.mems
  · rw [tables, older before.tables fun id member => (prepared.formed.tables id member).imp' _ fun _ isEntity => isEntity]
    exact prepared.tables

theorem codeAt_setBody (context : Context) (function other : Nat) (code : Body) :
    Context.codeAt { context with
      llvmModule := context.llvmModule.update function fun value => value.setBody code } other =
        (context.llvmModule.objects[other]?).bind fun object =>
          if function = other then (object.setBody code).body else object.body := by
  show ((context.llvmModule.update function fun value => value.setBody code).objects[other]?).bind _ = _
  rw [Llvm.Module.objects_setBody, List.getElem?_modify]
  cases context.llvmModule.objects[other]? with
  | none => rfl
  | some object =>
      show GlobalObject.body (if function = other then object.setBody code else object) = _
      rw [apply_ite GlobalObject.body]
      rfl

/-- A body for a function that has its objects. -/
theorem Formed.setBody (formed : Formed opts module before) (function : Nat) (code : Body) :
    Formed opts module { before with
      llvmModule := before.llvmModule.update function fun value => value.setBody code } := by
  have objects : ∀ other, (before.llvmModule.update function fun value => value.setBody code).objects[other]? =
      (before.llvmModule.objects[other]?).map fun object => if function = other then object.setBody code else object := by
    intro other
    rw [Llvm.Module.objects_setBody, List.getElem?_modify]
    rfl
  refine formed.change (f := fun other object => if function = other then object.setBody code else object)
    rfl objects fun other entity object _ _ isFor => ?_
  split
  · exact isFor.setBody code
  · exact isFor

theorem visitFunc_sets {index function : Nat} (prepared : Prepared opts module before)
    (ran : visitFunc index function before = .ok ((), after)) :
    SetsBodies opts module [index] [function] before after := by
  unfold visitFunc at ran
  rw [get_bind_run] at ran
  obtain ⟨func, middle, ranAt, ran⟩ := bind_ok.mp ran
  obtain ⟨found, same⟩ := at_ok ranAt
  cases same
  rw [prepared.environment_eq] at ran
  cases compiled : Block.visitFunc (instructions (module.environment opts)) func.func with
  | error reason => rw [compiled] at ran; cases ran
  | ok translated =>
      rw [compiled] at ran
      obtain ⟨_, declared, ranDeclare, ranBody⟩ := bind_ok.mp ran
      have declares : Forms opts module before (translated.function.declarations.forM getOrInsertDeclaration) :=
        Effect.forM_one fun declaration _ _ => getOrInsertDeclaration_forms declaration
      have grow : Effect growGrading before (translated.function.declarations.forM getOrInsertDeclaration) () :=
        Effect.forM_one fun declaration _ _ => getOrInsertDeclaration_grows declaration
      have grows : Grows before declared := grow.run ranDeclare
      obtain ⟨formed, codes⟩ := declares.run ranDeclare prepared.formed
      obtain ⟨code, isCode⟩ : ∃ code : Body, code = translated.function := ⟨_, rfl⟩
      have ranBody : updateModule (fun llvmModule => llvmModule.update function fun value => value.setBody code)
          declared = .ok ((), after) := by
        rw [isCode]
        exact ranBody
      have rest : Grows declared after := grows_updateModule.run ranBody
      cases ranBody
      have grown := prepared.grow grows formed
      refine ⟨⟨formed.setBody function code, grown.mems, grown.tables⟩, grows.trans rest, fun other outside => ?_,
        .cons ⟨code, ?_, fun own isFunc => ?_⟩ .nil⟩
      · have different : function ≠ other := fun same => outside (List.mem_singleton.mpr same.symm)
        rw [codeAt_setBody, ← codes other]
        simp only [if_neg different]
        rfl
      · refine ⟨func.func, translated, ?_, compiled, isCode⟩
        rw [← List.getElem?_map, ← prepared.formed.alike.funcs, List.getElem?_map, found]
        rfl
      · obtain ⟨object, isObject, isFor⟩ := formed.object (grows.entity isFunc)
        rw [codeAt_setBody, isObject, Option.bind_some, if_pos rfl]
        cases isFor with
        | func found type => rfl

/-- Each function of the list gets the body of its index. -/
theorem visitFuncs_set {indices functions : List Nat} (prepared : Prepared opts module before)
    (distinct : functions.Nodup) (lengths : functions.length = indices.length)
    (ran : visitFuncs indices functions before = .ok ((), after)) :
    SetsBodies opts module indices functions before after := by
  induction indices generalizing before functions with
  | nil =>
      cases List.eq_nil_of_length_eq_zero lengths
      cases ran
      exact ⟨prepared, .refl, fun _ _ => rfl, .nil⟩
  | cons index indices ih =>
      cases functions with
      | nil => cases lengths
      | cons function functions =>
          obtain ⟨apart, distinctRest⟩ := List.nodup_cons.mp distinct
          obtain ⟨_, middle, ranFirst, ranRest⟩ := bind_ok.mp ran
          have first := visitFunc_sets prepared ranFirst
          have rest := ih first.prepared distinctRest (Nat.succ.inj lengths) ranRest
          refine ⟨rest.prepared, first.grows.trans rest.grows, fun id outside => ?_, ?_⟩
          · rw [rest.others id fun member => outside (List.mem_cons_of_mem _ member)]
            exact first.others id fun member => outside (List.mem_singleton.mp member ▸ List.mem_cons_self)
          · cases first.bodies with
            | cons body _ =>
                obtain ⟨code, isCode, hasCode⟩ := body
                refine .cons ⟨code, isCode, fun own isFunc => (rest.others function apart).trans (hasCode own isFunc)⟩ ?_
                refine rest.bodies.imp fun index function body => ?_
                obtain ⟨code, isCode, hasCode⟩ := body
                exact ⟨code, isCode, fun own isFunc => hasCode own (first.grows.entity isFunc)⟩

/-- The functions that are declared are put at the end of the vector. -/
theorem declareFuncs_appends {indices functions : List Nat}
    (ran : declareFuncs indices before = .ok (functions, after)) :
    after.funcs = before.funcs ++ functions ∧ functions.length = indices.length := by
  induction indices generalizing before functions with
  | nil =>
      cases ran
      exact ⟨(List.append_nil _).symm, rfl⟩
  | cons index rest ih =>
      obtain ⟨function, first, ranFirst, ran⟩ := bind_ok.mp ran
      obtain ⟨_, middle, ranNames, ran⟩ := bind_ok.mp ran
      obtain ⟨functions, last, ranRest, ranPure⟩ := bind_ok.mp ran
      cases ranPure
      obtain ⟨_, _, _, _, _, isId, creates⟩ := declareFunc_creates ranFirst
      have funcs : middle.funcs = before.funcs ++ [function] := by
        rw [((fixNames_relabels function).run ranNames).context, isId, creates.context]
        rfl
      obtain ⟨appended, lengths⟩ := ih ranRest
      refine ⟨?_, congrArg Nat.succ lengths⟩
      rw [appended, funcs, List.append_assoc]
      rfl

end Bodies

/-! ## The module -/

/-- The function for an index. -/
inductive IsCompiled (opts : Options) (module : Module) (index : Nat) : GlobalObject Body → Prop where
  | declared {func : Func Instr} {params : List Ty} {result : Ty} (imported : index ∈ module.imported .func)
      (found : (module.funcs[index]?).map ModuleFunc.func = some func)
      (type : funcType? func.decl = some (params, result)) :
      IsCompiled opts module index (.function params result none)
  | defined {func : Func Instr} {params : List Ty} {result : Ty} {translated : BlockContext Operation}
      (member : index ∈ module.definedFuncs) (found : (module.funcs[index]?).map ModuleFunc.func = some func)
      (type : funcType? func.decl = some (params, result))
      (compiled : Block.visitFunc (instructions (module.environment opts)) func = .ok translated) :
      IsCompiled opts module index (.function params result (some translated.function))

/-- An object for each entity of the four index spaces, in order. -/
structure Compiled (opts : Options) (module : Module) (context : Context) : Prop where
  funcs : List.Forall₂ (fun id index => ∃ object, context.llvmModule.objects[id]? = some object ∧
    IsCompiled opts module index object) context.funcs (List.range module.funcs.length)
  globs : List.Forall₂ (fun id index => ∃ object, context.llvmModule.objects[id]? = some object ∧
    IsFor module (.global index) object) context.globs (List.range module.globals.length)
  mems : List.Forall₂ (fun id index => ∃ object, context.llvmModule.objects[id]? = some object ∧
    IsFor module (.memory index) object) context.mems (List.range module.memories.length)
  tables : List.Forall₂ (fun id index => ∃ object, context.llvmModule.objects[id]? = some object ∧
    IsFor module (.table index) object) context.tables (module.imported .table ++ List.range module.tables.length)
  environment : context.environment = module.environment opts

section Module

variable {opts : Options} {arrays : DataArrays} {module : Module} {before after context : Context}

theorem fillTables_funcs (ran : fillTables module before = .ok ((), after)) : after.funcs = before.funcs := by
  let grading : Grading Context Unit :=
    .ofPreorder (fun before after => after.funcs = before.funcs) (fun _ => rfl) fun left right => right.trans left
  have visits : ∀ elem ∈ module.elemSegments, ∀ before, Effect grading before (visitElem elem) 1 := by
    intro elem _ before
    refine ⟨fun ran => ?_⟩
    obtain ⟨id, gv, init, _, replaces⟩ := visitElem_ok ran
    exact replaces.funcs
  have fills : Effect grading before (fillTables module) 1 := fillTables_effect module visits
  exact fills.run ran

/-- The state in which the bodies are translated, and what is left of it in the end. -/
structure AroundBodies (opts : Options) (module : Module) (functions : List Nat) (before after context : Context) :
    Prop where
  prepared : Prepared opts module before
  bodiless : ∀ id, before.codeAt id = none
  space : before.funcs.map (before.entities[·]?) =
    (List.range module.funcs.length).map fun index => some (.func index)
  declared : ∃ imported, before.funcs = imported ++ functions ∧ imported.length = (module.imported .func).length
  lengths : functions.length = module.definedFuncs.length
  distinct : before.funcs.Nodup
  visits : visitFuncs module.definedFuncs functions before = .ok ((), after)
  kept : Formed opts module after → Formed opts module context ∧ ∀ id, context.codeAt id = after.codeAt id
  funcs : context.funcs = after.funcs

/-- The four vectors are the index spaces already before the bodies. -/
theorem spaces_before_bodies {declared filled announced : Context} {functions : List Nat} (listed : module.Listed)
    (ranDeclare : declareEntities module (Context.start opts arrays module) = .ok ((), declared))
    (ranFill : module.dataSegments.forM visitDataSegment declared = .ok ((), filled))
    (ranFuncs : declareFuncs module.definedFuncs filled = .ok (functions, announced))
    (ranTables : ((List.range module.tables.length).forM fun index => visitTable index false) announced =
      .ok ((), before)) :
    before.spaces =
      ⟨(List.range module.funcs.length).map fun index => some (.func index),
        (List.range module.globals.length).map fun index => some (.global index),
        (List.range module.memories.length).map fun index => some (.memory index),
        (module.imported .table ++ List.range module.tables.length).map fun index => some (.table index)⟩ := by
  obtain ⟨soundDeclared, spacesDeclared⟩ := (declareEntities_adds module).run ranDeclare (start_sound opts arrays module)
  have fills : Adds declared (module.dataSegments.forM visitDataSegment) 1 :=
    Effect.forM_one fun segment _ _ => visitDataSegment_adds segment
  obtain ⟨soundFilled, spacesFilled⟩ := fills.run ranFill soundDeclared
  obtain ⟨soundFuncs, spacesFuncs⟩ := (declareFuncs_adds _).run ranFuncs soundFilled
  have tables : Adds announced ((List.range module.tables.length).forM fun index => visitTable index false)
      (Spaces.ofTables (List.range module.tables.length)) := by
    rw [← Spaces.prod_tables]
    exact .forM fun index _ _ => visitTable_adds index false
  have spacesTables := (tables.run ranTables soundFuncs).2
  rw [spacesTables, spacesFuncs, spacesFilled, spacesDeclared, mul_one, mul_assoc, mul_assoc]
  exact listed.spaces opts arrays

theorem translateModule_bodies (listed : module.Listed) (ran : translateModule opts arrays module = .ok context) :
    ∃ functions before after, AroundBodies opts module functions before after context := by
  obtain ⟨declared, filled, ranDeclare, ranFill, ranFinish⟩ := translateModule_iff.mp ran
  rw [finishModule_eq] at ranFinish
  obtain ⟨_, after, ranFunctions, ranFinish⟩ := bind_ok.mp ranFinish
  obtain ⟨_, named, ranNames, ranTables⟩ := bind_ok.mp ranFinish
  obtain ⟨functions, announced, ranFuncs, ranFunctions⟩ := bind_ok.mp ranFunctions
  obtain ⟨_, before, ranTabs, ranBodies⟩ := bind_ok.mp ranFunctions
  -- the objects
  obtain ⟨formed, codes⟩ := declareEntities_forms.run ranDeclare (start_formed opts arrays module)
  obtain ⟨formedFilled, codesFilled⟩ := (visitDataSegments_form _).run ranFill formed
  obtain ⟨formedFuncs, codesFuncs⟩ := (declareFuncs_forms _).run ranFuncs formedFilled
  obtain ⟨formedBefore, codesBefore⟩ := (visitTables_form _).run ranTabs formedFuncs
  have bodiless : ∀ id, before.codeAt id = none := by
    intro id
    rw [codesBefore, codesFuncs, codesFilled, codes]
    rfl
  have spaces := spaces_before_bodies listed ranDeclare ranFill ranFuncs ranTabs
  have funcSpace : before.funcs.map (before.entities[·]?) =
      (List.range module.funcs.length).map fun index => some (.func index) := congrArg Spaces.funcs spaces
  have distinct : before.funcs.Nodup := by
    refine List.Nodup.of_map (before.entities[·]?) ?_
    rw [funcSpace]
    refine List.nodup_range.map fun first second same => ?_
    cases same
    rfl
  -- the functions
  obtain ⟨appended, lengths⟩ := declareFuncs_appends ranFuncs
  have remains := (declareEntities_named module).run ranDeclare (start_named opts arrays module)
  obtain ⟨namedFilled, steadyFilled⟩ := (visitDataSegments_leave _).run ranFill remains.named
  have declares : KeepsNamed module filled (declareFuncs module.definedFuncs) := declareFuncs_named module.definedFuncs
  obtain ⟨_, steadyBefore⟩ := (visitTables_leave _).run ranTabs (declares.run ranFuncs namedFilled).named
  refine ⟨functions, before, after, ⟨?_, bodiless, funcSpace, ⟨declared.funcs, ?_, ?_⟩, lengths, distinct, ranBodies,
    fun formedAfter => ?_, ?_⟩⟩
  · exact ⟨formedBefore, congrArg Spaces.mems spaces, congrArg Spaces.tables spaces⟩
  · rw [steadyBefore.funcs, appended, steadyFilled.funcs]
  · exact declareEntities_funcs ranDeclare
  · obtain ⟨formedNamed, codesNamed⟩ := nameFunctions_forms.run ranNames formedAfter
    obtain ⟨formedContext, codesContext⟩ := fillTables_forms.run ranTables formedNamed
    exact ⟨formedContext, fun id => (codesContext id).trans (codesNamed id)⟩
  · rw [fillTables_funcs ranTables, ((nameFunctions_relabels module).run ranNames).context]

/-- The function in a place after the bodies are translated. -/
theorem AroundBodies.compiled {functions : List Nat} {index id : Nat}
    (around : AroundBodies opts module functions before after context) (listed : module.Listed)
    (found : context.funcs[index]? = some id) (isFunc : context.entities[id]? = some (.func index))
    (inside : index < module.funcs.length) :
    ∃ object, context.llvmModule.objects[id]? = some object ∧ IsCompiled opts module index object := by
  obtain ⟨imported, funcs, importedLength⟩ := around.declared
  have distinct := around.distinct
  rw [funcs] at distinct
  obtain ⟨_, distinctFunctions, apart⟩ := List.nodup_append.mp distinct
  have sets := visitFuncs_set around.prepared distinctFunctions around.lengths around.visits
  obtain ⟨formed, codes⟩ := around.kept sets.prepared.formed
  obtain ⟨object, isObject, isFor⟩ := formed.object isFunc
  have code : object.body = after.codeAt id := by
    rw [← codes id, Context.codeAt, isObject]
    rfl
  have same : after.funcs = before.funcs := by rw [sets.grows.context]
  rw [around.funcs, same] at found
  have wasFunc : before.entities[id]? = some (.func index) := by
    have entry := congrArg (·[index]?) around.space
    simpa [found, inside] using entry
  rw [funcs] at found
  have place : (module.imported .func ++ module.definedFuncs)[index]? = some index := by
    rw [listed.funcs, List.getElem?_range inside]
  refine ⟨object, isObject, ?_⟩
  cases isFor with
  | @func _ func params result body foundFunc type =>
      by_cases isImported : index < imported.length
      · rw [List.getElem?_append_left isImported] at found
        rw [List.getElem?_append_left (importedLength ▸ isImported)] at place
        have outside : id ∉ functions := fun member => apart id (List.mem_of_getElem? found) id member rfl
        have none_ : body = none := by
          refine code.trans ?_
          rw [sets.others id outside]
          exact around.bodiless id
        rw [none_]
        exact .declared (List.mem_of_getElem? place) foundFunc type
      · rw [List.getElem?_append_right (Nat.le_of_not_lt isImported)] at found
        rw [List.getElem?_append_right (importedLength ▸ Nat.le_of_not_lt isImported), ← importedLength] at place
        obtain ⟨insideFunctions, isId⟩ := List.getElem?_eq_some_iff.mp found
        obtain ⟨insideDefined, isIndex⟩ := List.getElem?_eq_some_iff.mp place
        obtain ⟨code', ⟨func', translated, foundFunc', compiled, isCode⟩, hasCode⟩ :=
          sets.bodies.get insideDefined insideFunctions
        rw [List.get_eq_getElem, isIndex] at foundFunc'
        cases foundFunc.symm.trans foundFunc'
        rw [List.get_eq_getElem, isId] at hasCode
        have some_ : body = some translated.function := by
          refine code.trans ?_
          rw [hasCode index wasFunc, isCode]
          rfl
        rw [some_]
        exact .defined (List.mem_of_getElem? place) foundFunc type compiled

/-- The functions of a translated module have the code of their own bodies, in the index
spaces of the module; imported functions have no body. Globals, memories and tables are
variables of their types and sizes. -/
theorem translateModule_compiled (listed : module.Listed) (ran : translateModule opts arrays module = .ok context) :
    Compiled opts module context := by
  have spaces := translateModule_spaces listed ran
  obtain ⟨functions, before, after, around⟩ := translateModule_bodies listed ran
  have distinct := around.distinct
  obtain ⟨imported, funcs, _⟩ := around.declared
  rw [funcs] at distinct
  have sets := visitFuncs_set around.prepared (List.nodup_append.mp distinct).2.1 around.lengths around.visits
  obtain ⟨formed, _⟩ := around.kept sets.prepared.formed
  have objects : ∀ {kind : Nat → Entity} {ids indices : List Nat},
      ids.map (context.entities[·]?) = (indices.map fun index => some (kind index)) →
        List.Forall₂ (fun id index => ∃ object, context.llvmModule.objects[id]? = some object ∧
          IsFor module (kind index) object) ids indices :=
    fun same => (forall₂_of_map_eq same).imp fun _ _ isEntity => formed.object isEntity
  have prepared : Prepared opts module context :=
    ⟨formed, congrArg Spaces.mems spaces, congrArg Spaces.tables spaces⟩
  refine ⟨?_, objects (congrArg Spaces.globs spaces), objects prepared.mems, objects prepared.tables,
    prepared.environment_eq⟩
  have entities := forall₂_of_map_eq (congrArg Spaces.funcs spaces)
  refine List.forall₂_iff_get.mpr ⟨entities.length_eq, fun index insideFuncs insideRange => ?_⟩
  have inside : index < module.funcs.length := by simpa using insideRange
  have isFunc := entities.get insideFuncs insideRange
  have isIndex : (List.range module.funcs.length).get ⟨index, insideRange⟩ = index := by simp
  rw [isIndex] at isFunc ⊢
  exact around.compiled listed (List.getElem?_eq_getElem insideFuncs) isFunc inside

theorem translateModule_compiled_calling : ∃ context, translateModule ⟨false, false, false, false, false, false, false⟩ []
    callingModule = .ok context ∧ Compiled ⟨false, false, false, false, false, false, false⟩ callingModule context := by
  obtain ⟨context, ran⟩ := callingModule_completes
  exact ⟨context, ran, translateModule_compiled callingModule_listed ran⟩

end Module

end WasmToLlvm.Modules
