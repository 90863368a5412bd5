import WasmToLlvm.Modules.Visit

/-!
# Index spaces

The vectors of functions, globals, memories and tables after the translation of a module:
what every step adds to them, and when they are the index spaces of the module.
-/

set_option autoImplicit false

namespace WasmToLlvm.Modules

open Llvm Wasm Block Instruction Library

/-- The entities for which the objects in the four vectors were created. -/
@[ext] structure Spaces where
  funcs : List (Option Entity)
  globs : List (Option Entity)
  mems : List (Option Entity)
  tables : List (Option Entity)

namespace Spaces

instance : One Spaces := ⟨⟨[], [], [], []⟩⟩

instance : Mul Spaces where
  mul first second :=
    ⟨first.funcs ++ second.funcs, first.globs ++ second.globs, first.mems ++ second.mems,
      first.tables ++ second.tables⟩

@[simp] theorem funcs_mul (first second : Spaces) :
    (first * second).funcs = first.funcs ++ second.funcs := rfl

@[simp] theorem globs_mul (first second : Spaces) :
    (first * second).globs = first.globs ++ second.globs := rfl

@[simp] theorem mems_mul (first second : Spaces) :
    (first * second).mems = first.mems ++ second.mems := rfl

@[simp] theorem tables_mul (first second : Spaces) :
    (first * second).tables = first.tables ++ second.tables := rfl

/-- Spaces one after the other. -/
instance : Monoid Spaces where
  mul_assoc first second third := by ext1 <;> simp
  one_mul spaces := rfl
  mul_one spaces := by ext1 <;> simp <;> rfl

end Spaces

def Context.spaces (context : Context) : Spaces where
  funcs := context.funcs.map (context.entities[·]?)
  globs := context.globs.map (context.entities[·]?)
  mems := context.mems.map (context.entities[·]?)
  tables := context.tables.map (context.entities[·]?)

/-- The history has an entry for each global value, the vectors hold global values, and
tables have variables of their own. -/
structure Sound (context : Context) : Prop where
  created : context.entities.length = context.llvmModule.values.length
  held : ∀ id ∈ context.funcs ++ context.globs ++ context.mems ++ context.tables,
    id < context.entities.length
  distinct : context.tables.Nodup

/-- Entities are added to the vectors, and to nothing else. -/
def spaceGrading : Grading Context Spaces where
  relates added before after := Sound before → Sound after ∧ after.spaces = before.spaces * added
  refl context sound := ⟨sound, (mul_one _).symm⟩
  trans first second sound := by
    obtain ⟨soundMiddle, spacesMiddle⟩ := first sound
    obtain ⟨soundAfter, spacesAfter⟩ := second soundMiddle
    exact ⟨soundAfter, by rw [spacesAfter, spacesMiddle, mul_assoc]⟩

/-- A computation that adds these entities to the vectors. -/
abbrev Adds {α : Type} (before : Context) (emit : Translate α) (added : Spaces) : Prop :=
  Effect spaceGrading before emit added

section Steps

variable {before : Context}

/-- An update that leaves the vectors and the history alone, and the number of values. -/
theorem adds_modify {update : Context → Context}
    (values : (update before).llvmModule.values.length = before.llvmModule.values.length)
    (entities : (update before).entities = before.entities) (funcs : (update before).funcs = before.funcs)
    (globs : (update before).globs = before.globs) (mems : (update before).mems = before.mems)
    (tables : (update before).tables = before.tables) : Adds before (modify update) 1 := by
  refine .modify fun sound => ⟨⟨?_, ?_, ?_⟩, ?_⟩
  · rw [entities, values, sound.created]
  · rw [entities, funcs, globs, mems, tables]
    exact sound.held
  · rw [tables]
    exact sound.distinct
  · rw [mul_one, Context.spaces, Context.spaces, entities, funcs, globs, mems, tables]

/-- What is created has its entity in the history, and is in no vector. -/
theorem adds_create {β : Type} {next : Nat → Translate β} {entity : Entity} {name : Name} {linkage : Linkage}
    {object : GlobalObject Body} {added : Spaces}
    (rest : ∀ {id middle}, middle.entities[id]? = some entity → id ∉ middle.tables →
      Adds middle (next id) added) :
    Adds before (createGlobalValue entity name linkage object >>= next) added where
  run ran sound := by
    have created : (before.entities ++ [entity])[before.llvmModule.values.length]? = some entity := by
      rw [← sound.created, List.getElem?_append_right (Nat.le_refl _), Nat.sub_self]
      rfl
    have older : ∀ ids : List Nat, (∀ id ∈ ids, id < before.entities.length) →
        ids.map ((before.entities ++ [entity])[·]?) = ids.map (before.entities[·]?) := by
      intro ids held
      refine List.map_congr_left fun id member => ?_
      exact List.getElem?_append_left (held id member)
    have held := sound.held
    simp only [List.mem_append] at held
    have fresh : before.llvmModule.values.length ∉ before.tables := by
      intro member
      have inside := held _ (.inr member)
      rw [sound.created] at inside
      exact Nat.lt_irrefl _ inside
    obtain ⟨id, middle, ranFirst, ranRest⟩ := bind_ok.mp ran
    have continued : Adds middle (next id) added := by
      have inMiddle : middle.entities[id]? = some entity ∧ id ∉ middle.tables := by
        cases ranFirst
        exact ⟨created, fresh⟩
      exact rest inMiddle.1 inMiddle.2
    cases ranFirst
    have soundMiddle : Sound { before with
        llvmModule := (before.llvmModule.create name linkage object).2
        entities := before.entities ++ [entity] } := by
      constructor
      · show (before.entities ++ [entity]).length = (before.llvmModule.values ++ [_]).length
        rw [List.length_append, List.length_append, sound.created]
        rfl
      · intro id member
        exact Nat.lt_of_lt_of_le (sound.held id member) (by simp)
      · exact sound.distinct
    obtain ⟨soundAfter, spacesAfter⟩ := continued.run ranRest soundMiddle
    refine ⟨soundAfter, spacesAfter.trans (congrArg (· * added) ?_)⟩
    apply Spaces.ext
    · exact older before.funcs fun id member => held id (.inl (.inl (.inl member)))
    · exact older before.globs fun id member => held id (.inl (.inl (.inr member)))
    · exact older before.mems fun id member => held id (.inl (.inr member))
    · exact older before.tables fun id member => held id (.inr member)

theorem adds_updateModule {change : Llvm.Module Body → Llvm.Module Body}
    (values : (change before.llvmModule).values.length = before.llvmModule.values.length) :
    Adds before (updateModule change) 1 :=
  adds_modify values rfl rfl rfl rfl rfl

/-- The object of an entity is put into its vector. -/
theorem adds_push {push : Context → Context} {added : Spaces} {id : Nat} {entity : Entity}
    (created : before.entities[id]? = some entity)
    (values : (push before).llvmModule = before.llvmModule) (entities : (push before).entities = before.entities)
    (held : ∀ other ∈ (push before).funcs ++ (push before).globs ++ (push before).mems ++ (push before).tables,
      other ∈ before.funcs ++ before.globs ++ before.mems ++ before.tables ∨ other = id)
    (distinct : before.tables.Nodup → (push before).tables.Nodup)
    (spaces : (push before).spaces = before.spaces * added) : Adds before (modify push) added := by
  refine .modify fun sound =>
    ⟨⟨by rw [entities, values, sound.created], fun other member => ?_, distinct sound.distinct⟩, spaces⟩
  rw [entities]
  rcases held other member with old | rfl
  · exact sound.held other old
  · exact (List.getElem?_eq_some_iff.mp created).1

/-! ## Declarations -/

theorem declareFunc_adds (index : Nat) (isExternal : Bool) :
    Adds before (declareFunc index isExternal) ⟨[some (.func index)], [], [], []⟩ := by
  unfold declareFunc
  refine .get (at_reads.skip fun _ => convertFuncType_reads.skip fun {pair _} _ => ?_)
  obtain ⟨params, result⟩ := pair
  refine adds_create fun created _ => Effect.then_ (adds_push created rfl rfl ?_ id ?_) fun _ => .pure _
  · intro other
    simp only [List.mem_append, List.mem_singleton]
    tauto
  · simp only [Context.spaces, List.map_append, List.map_cons, List.map_nil, created]
    apply Spaces.ext <;> simp

theorem visitGlobal_adds (index : Nat) (isExternal : Bool) :
    Adds before (visitGlobal index isExternal) ⟨[], [some (.global index)], [], []⟩ := by
  unfold visitGlobal
  refine .get (at_reads.skip fun _ => convertType_reads.skip fun _ => adds_create fun created _ => ?_)
  have push : ∀ {middle : Context} {id : Nat}, middle.entities[id]? = some (.global index) →
      Adds middle (modify fun context =>
        { context with globs := context.globs ++ [id], globIndex := context.globIndex + 1 })
        ⟨[], [some (.global index)], [], []⟩ := by
    intro middle id created
    refine adds_push created rfl rfl ?_ (fun distinct => distinct) ?_
    · intro other
      simp only [List.mem_append, List.mem_singleton]
      tauto
    · simp only [Context.spaces, List.map_append, List.map_cons, List.map_nil, created]
      apply Spaces.ext <;> simp
  cases isExternal with
  | true => exact push created
  | false =>
      refine visitInitExpr_reads.skip fun ran => ?_
      cases visitInitExpr_reads.same ran
      refine (adds_updateModule (Llvm.Module.update_length ..)).skip fun ran => ?_
      cases ran
      exact push created

theorem visitTable_adds (index : Nat) (isExternal : Bool) :
    Adds before (visitTable index isExternal) ⟨[], [], [], [some (.table index)]⟩ := by
  unfold visitTable
  refine .get (at_reads.skip fun _ => ?_)
  refine .ite (fun _ => .throw _) fun _ => adds_create fun created fresh =>
    adds_push created rfl rfl ?_ (fun distinct => ?_) ?_
  · intro other
    simp only [List.mem_append, List.mem_singleton]
    tauto
  · exact List.nodup_append.mpr ⟨distinct, List.pairwise_singleton _ _, fun other member _ same equal =>
      fresh (List.mem_singleton.mp same ▸ equal ▸ member)⟩
  · simp only [Context.spaces, List.map_append, List.map_cons, List.map_nil, created]
    apply Spaces.ext <;> simp

theorem declareMemory_adds (index : Nat) (isExternal : Bool) :
    Adds before (declareMemory index isExternal) ⟨[], [], [some (.memory index)], []⟩ := by
  unfold declareMemory
  refine .get (at_reads.skip fun _ => adds_create fun created _ => adds_push created rfl rfl ?_ id ?_)
  · intro other
    simp only [List.mem_append, List.mem_singleton]
    tauto
  · simp only [Context.spaces, List.map_append, List.map_cons, List.map_nil, created]
    apply Spaces.ext <;> simp

/-! ## Phases -/

/-- What an entity adds to its vector. -/
def Spaces.ofEntity (kind : ExternalKind) (index : Nat) : Spaces :=
  match kind with
  | .func => ⟨[some (.func index)], [], [], []⟩
  | .global => ⟨[], [some (.global index)], [], []⟩
  | .memory => ⟨[], [], [some (.memory index)], []⟩
  | .table => ⟨[], [], [], [some (.table index)]⟩
  | .tag => 1

theorem visitImport_adds (entity : Import) :
    Adds before (visitImport entity) (.ofEntity entity.kind entity.index) := by
  unfold visitImport
  have named : Adds before (nameImport entity) 1 := adds_modify rfl rfl rfl rfl rfl rfl
  refine named.skip fun _ => ?_
  cases entity.kind with
  | func => exact (declareFunc_adds _ _).then_ fun _ => .pure _
  | memory => exact declareMemory_adds _ _
  | global => exact visitGlobal_adds _ _
  | table => exact visitTable_adds _ _
  | tag => exact .pure _

theorem visitGlobals_adds (visited indices : List Nat) :
    Adds before (visitGlobals visited indices)
      ⟨[], (indices.filter (· ∉ visited)).map fun index => some (.global index), [], []⟩ := by
  induction indices generalizing before with
  | nil => exact .pure _
  | cons index rest ih =>
      unfold visitGlobals
      by_cases member : index ∈ visited
      · rw [List.filter_cons_of_neg (by simpa using member), if_neg (not_not.mpr member)]
        exact ih
      · rw [List.filter_cons_of_pos (by simpa using member), if_pos member]
        exact (visitGlobal_adds index false).bind fun _ => ih

theorem fixNames_adds (function : Nat) : Adds before (fixNames function) 1 := by
  have renamed : ∀ {before : Context} (name new : Name),
      Adds before (updateModule (renameFunction function name new)) 1 := by
    intro before name new
    refine adds_updateModule ?_
    unfold renameFunction
    split <;> simp
  have main : ∀ {before : Context}, Adds before (updateModule (renameMain function)) 1 := by
    intro before
    refine adds_updateModule ?_
    unfold renameMain clearName
    repeat' split
    all_goals simp
  have dollar : ∀ {before : Context}, Adds before (removeDollarName function) 1 := by
    intro before
    unfold removeDollarName
    refine .get ?_
    split
    · exact .throw _
    · exact adds_updateModule (Llvm.Module.setName_length ..)
    · exact .pure _
  have rest : ∀ {before : Context}, Adds before (do
      updateModule (renameMain function)
      updateModule (renameFunction function "memset".toList "memset_1".toList)
      updateModule (renameFunction function "memcpy".toList "memcpy_1".toList)) 1 :=
    main.skip fun _ => (renamed _ _).skip fun _ => renamed _ _
  unfold fixNames
  refine .get (.ite (fun _ => ?_) fun _ => .ite (fun _ => ?_) fun _ => .pure _)
  · refine .ite (fun _ => dollar.skip fun _ => rest) fun _ => rest
  · exact adds_updateModule (Llvm.Module.setLinkage_length ..)

theorem declareFuncs_adds (indices : List Nat) :
    Adds before (declareFuncs indices) ⟨indices.map fun index => some (.func index), [], [], []⟩ := by
  induction indices generalizing before with
  | nil => exact .pure _
  | cons index rest ih =>
      unfold declareFuncs
      exact (declareFunc_adds index false).bind fun _ => (fixNames_adds _).skip fun _ => ih.then_ fun _ => .pure _

theorem getOrInsertDeclaration_adds (declaration : Declaration) : Adds before (getOrInsertDeclaration declaration) 1 :=
  getOrInsertDeclaration_effect declaration (fun _ => adds_create fun _ _ => .pure _) fun _ _ =>
    adds_updateModule (Llvm.Module.setName_length ..)

theorem visitFuncs_adds (indices functions : List Nat) : Adds before (visitFuncs indices functions) 1 :=
  visitFuncs_effect indices functions (fun declaration _ _ => getOrInsertDeclaration_adds declaration) fun _ _ _ =>
    adds_updateModule (Llvm.Module.update_length ..)

theorem visitExport_adds (entity : Export) : Adds before (visitExport entity) 1 := by
  have external : ∀ {before : Context} (values : List Nat) (index : Nat),
      Adds before (exportEntity values index) 1 := by
    intro before values index
    unfold exportEntity
    exact at_reads.skip fun _ => (adds_updateModule (Llvm.Module.setLinkage_length ..)).skip fun _ => .pure _
  unfold visitExport
  refine .get ?_
  cases entity.kind with
  | func =>
      refine (external _ _).skip fun _ => adds_updateModule ?_
      unfold exportName clearName
      repeat' split
      all_goals simp
  | memory => exact (external _ _).skip fun _ => .pure _
  | global => exact (external _ _).skip fun _ => .pure _
  | table => exact .pure _
  | tag => exact .pure _

theorem assignDefaultNames_adds (functions : List Nat) (index : Nat) :
    Adds before (assignDefaultNames functions index) 1 := by
  induction functions generalizing before index with
  | nil => exact .pure _
  | cons function functions ih =>
      unfold assignDefaultNames
      refine (adds_updateModule ?_).skip fun _ => ih (index + 1)
      unfold defaultName
      split <;> simp

theorem getRawData_adds {bytes : List Byte} : Adds before (getRawData bytes) 1 where
  run ran sound := by
    cases ran
    exact ⟨⟨sound.created, sound.held, sound.distinct⟩, (mul_one _).symm⟩

theorem visitDataSegment_adds (segment : DataSegment) : Adds before (visitDataSegment segment) 1 := by
  unfold visitDataSegment
  refine .get (.ite (fun _ => .throw _) fun _ => at_reads.skip fun _ => at_reads.skip fun _ =>
    visitInitExpr_reads.skip fun {offset _} _ => ?_)
  refine .ite (fun _ => ?_) fun _ => .ite (fun _ => .pure _) fun _ => unwrapIntConstant_reads.skip fun _ => ?_
  · unfold createSplitSegment
    split
    · exact getRawData_adds.skip fun _ => adds_create fun _ _ => .pure _
    · exact .throw _
  · have fresh : ∀ {before : Context} (mem size : Nat) (offset : BitVec 64), Adds before (do
        let init ← createMemInitializer size offset segment.data
        updateModule fun llvmModule => llvmModule.update mem fun value => value.setInitializer init) 1 := by
      intro before mem size offset
      unfold createMemInitializer
      refine Effect.skip (copyData_reads.skip fun _ => getRawData_adds) fun _ => ?_
      exact adds_updateModule (Llvm.Module.update_length ..)
    split
    · exact fresh _ _ _
    · exact fresh _ _ _
    · unfold modMemInitializer
      exact .get (at_reads.skip fun _ => copyData_reads.skip fun _ => adds_modify rfl rfl rfl rfl rfl rfl)
    · exact .throw _

theorem visitElem_adds (elem : ElemSegment) : Adds before (visitElem elem) 1 := by
  unfold visitElem
  refine .ite (fun _ => .throw _) fun _ => .ite (fun _ => .throw _) fun _ => .get (at_reads.skip fun _ =>
    at_reads.skip fun _ => visitInitExpr_reads.skip fun _ => unwrapIntConstant_reads.skip fun _ =>
      elemSlots_reads.skip fun _ => ?_)
  unfold replaceInitializer
  refine .get (at_reads.skip fun _ => ?_)
  split
  · refine .ite (fun _ => .ite (fun _ => .throw _) fun _ => ?_) fun _ => .pure _
    exact adds_updateModule (Llvm.Module.replaceAllUsesWith_length ..)
  · exact adds_updateModule (Llvm.Module.update_length ..)

end Steps

/-! ## The module -/

namespace Spaces

def ofFuncs (indices : List Nat) : Spaces := ⟨indices.map fun index => some (.func index), [], [], []⟩

def ofGlobals (indices : List Nat) : Spaces := ⟨[], indices.map fun index => some (.global index), [], []⟩

def ofMemories (indices : List Nat) : Spaces := ⟨[], [], indices.map fun index => some (.memory index), []⟩

def ofTables (indices : List Nat) : Spaces := ⟨[], [], [], indices.map fun index => some (.table index)⟩

/-- What the imports add. -/
def ofImports (module : Module) : Spaces :=
  ⟨(module.imported .func).map fun index => some (.func index),
    (module.imported .global).map fun index => some (.global index),
    (module.imported .memory).map fun index => some (.memory index),
    (module.imported .table).map fun index => some (.table index)⟩

theorem prod_imports (module : Module) :
    (module.imports.map fun entity => ofEntity entity.kind entity.index).prod = ofImports module := by
  unfold ofImports Module.imported
  induction module.imports with
  | nil => rfl
  | cons entity imports ih =>
      rw [List.map_cons, List.prod_cons, ih]
      cases kind : entity.kind <;> apply Spaces.ext <;> simp [ofEntity, kind]

theorem prod_memories (indices : List Nat) :
    (indices.map fun index => ofEntity .memory index).prod = ofMemories indices := by
  induction indices with
  | nil => rfl
  | cons index indices ih => rw [List.map_cons, List.prod_cons, ih]; rfl

theorem prod_tables (indices : List Nat) :
    (indices.map fun index => ofEntity .table index).prod = ofTables indices := by
  induction indices with
  | nil => rfl
  | cons index indices ih => rw [List.map_cons, List.prod_cons, ih]; rfl

end Spaces

/-- The globals that are not imported. -/
def Module.ownGlobals (module : Module) : List Nat :=
  (List.range module.globals.length).filter (· ∉ module.imported .global)

theorem declareEntities_adds {before : Context} (module : Module) : Adds before (declareEntities module)
    (Spaces.ofImports module * (Spaces.ofGlobals module.ownGlobals * Spaces.ofMemories module.definedMemories)) := by
  have imports : ∀ {middle : Context}, Adds middle (module.imports.forM visitImport) (Spaces.ofImports module) := by
    intro middle
    rw [← Spaces.prod_imports]
    exact .forM fun entity _ _ => visitImport_adds entity
  have memories : ∀ {middle : Context}, Adds middle (module.definedMemories.forM fun index =>
      declareMemory index false) (Spaces.ofMemories module.definedMemories) := by
    intro middle
    rw [← Spaces.prod_memories]
    exact .forM fun index _ _ => declareMemory_adds index false
  unfold declareEntities
  exact .get (.ite (fun _ => .throw _) fun _ => imports.bind fun _ => (visitGlobals_adds _ _).bind fun _ => memories)

theorem declareFunctions_adds {before : Context} (module : Module) : Adds before (declareFunctions module)
    (Spaces.ofFuncs module.definedFuncs * Spaces.ofTables (List.range module.tables.length)) := by
  have tables : ∀ {middle : Context}, Adds middle ((List.range module.tables.length).forM fun index =>
      visitTable index false) (Spaces.ofTables (List.range module.tables.length)) := by
    intro middle
    rw [← Spaces.prod_tables]
    exact .forM fun index _ _ => visitTable_adds index false
  unfold declareFunctions
  exact (declareFuncs_adds _).bind fun _ => tables.then_ fun _ => visitFuncs_adds _ _

theorem nameFunctions_adds {before : Context} (module : Module) : Adds before (nameFunctions module) 1 := by
  unfold nameFunctions
  exact (Effect.forM_one fun entity _ _ => visitExport_adds entity).skip fun _ => .get (assignDefaultNames_adds _ _)

/-- All that is added is added before the element segments; the tables are added once more. -/
theorem beforeTables_adds {before : Context} (module : Module) : Adds before (beforeTables module)
    (Spaces.ofImports module * (Spaces.ofGlobals module.ownGlobals * Spaces.ofMemories module.definedMemories) *
      (Spaces.ofFuncs module.definedFuncs * Spaces.ofTables (List.range module.tables.length))) := by
  have segments : ∀ {middle : Context}, Adds middle (module.dataSegments.forM visitDataSegment) 1 :=
    Effect.forM_one fun segment _ _ => visitDataSegment_adds segment
  unfold beforeTables beforeExports
  refine Effect.then_ ?_ fun _ => nameFunctions_adds module
  exact (declareEntities_adds module).bind fun _ => segments.skip fun _ => declareFunctions_adds module

/-- Each vector has exactly one object for each entity of its index space, in order. -/
structure Mapped (context : Context) (module : Module) : Prop where
  funcs : context.funcs.map (context.entities[·]?) =
    (List.range module.funcs.length).map fun index => some (.func index)
  globs : context.globs.map (context.entities[·]?) =
    (List.range module.globals.length).map fun index => some (.global index)
  mems : context.mems.map (context.entities[·]?) =
    (List.range module.memories.length).map fun index => some (.memory index)
  tables : context.tables.map (context.entities[·]?) =
    (List.range module.tables.length).map fun index => some (.table index)

/-- The entry that a reference resolves to. -/
def Context.referred (context : Context) : GlobalRef → Option Nat
  | .function index => context.funcs[index]?
  | .variable index => context.globs[index]?
  | .memory index => context.mems[index]?
  | .table index => context.tables[index]?

def referredEntity : GlobalRef → Entity
  | .function index => .func index
  | .variable index => .global index
  | .memory index => .memory index
  | .table index => .table index

theorem entity_of_space {context : Context} {ids : List Nat} {entity : Nat → Entity} {count index id : Nat}
    (space : ids.map (context.entities[·]?) = (List.range count).map fun index => some (entity index))
    (found : ids[index]? = some id) : context.entities[id]? = some (entity index) := by
  have entry := congrArg (·[index]?) space
  simp only [List.getElem?_map, found, Option.map_some] at entry
  obtain ⟨place, isPlace, same⟩ := Option.map_eq_some_iff.mp entry.symm
  obtain ⟨_, isIndex⟩ := List.getElem?_eq_some_iff.mp isPlace
  rw [← same, ← isIndex, List.getElem_range]

/-- Calls, accesses to globals and memories, indirect calls, segments and exports that resolve
an index use the entry for this index. -/
theorem Mapped.resolves {context : Context} {module : Module} {ref : GlobalRef} {id : Nat}
    (mapped : Mapped context module) (resolved : context.referred ref = some id) :
    context.entities[id]? = some (referredEntity ref) := by
  cases ref with
  | function index => exact entity_of_space mapped.funcs resolved
  | «variable» index => exact entity_of_space mapped.globs resolved
  | memory index => exact entity_of_space mapped.mems resolved
  | table index => exact entity_of_space mapped.tables resolved

/-- The imported globals and the others are the index space. -/
theorem Module.Listed.ownGlobals {module : Module} (listed : module.Listed) :
    module.imported .global ++ module.ownGlobals = List.range module.globals.length := by
  have distinct : (module.imported .global ++ module.definedGlobals).Nodup :=
    listed.globals ▸ List.nodup_range
  have imported : (module.imported .global).filter (· ∉ module.imported .global) = [] := by
    rw [List.filter_eq_nil_iff]
    intro index member outside
    exact of_decide_eq_true outside member
  have defined : module.definedGlobals.filter (· ∉ module.imported .global) = module.definedGlobals := by
    rw [List.filter_eq_self]
    intro index member
    exact decide_eq_true fun other => (List.nodup_append.mp distinct).2.2 index other index member rfl
  rw [Module.ownGlobals, ← listed.globals, List.filter_append, imported, defined, List.nil_append]

theorem start_sound (opts : Options) (arrays : DataArrays) (module : Module) :
    Sound (Context.start opts arrays module) :=
  ⟨rfl, nofun, List.nodup_nil⟩

/-- What all steps add together. -/
theorem Module.Listed.spaces {module : Module} (listed : module.Listed) (opts : Options) (arrays : DataArrays) :
    (Context.start opts arrays module).spaces *
        (Spaces.ofImports module * (Spaces.ofGlobals module.ownGlobals * Spaces.ofMemories module.definedMemories) *
          (Spaces.ofFuncs module.definedFuncs * Spaces.ofTables (List.range module.tables.length))) =
      ⟨(List.range module.funcs.length).map fun index => some (.func index),
        (List.range module.globals.length).map fun index => some (.global index),
        (List.range module.memories.length).map fun index => some (.memory index),
        (module.imported .table ++ List.range module.tables.length).map fun index => some (.table index)⟩ := by
  apply Spaces.ext
  · simp [Context.start, Context.spaces, Spaces.ofImports, Spaces.ofGlobals, Spaces.ofMemories, Spaces.ofFuncs,
      Spaces.ofTables, ← listed.funcs]
  · simp [Context.start, Context.spaces, Spaces.ofImports, Spaces.ofGlobals, Spaces.ofMemories, Spaces.ofFuncs,
      Spaces.ofTables, ← listed.ownGlobals]
  · simp [Context.start, Context.spaces, Spaces.ofImports, Spaces.ofGlobals, Spaces.ofMemories, Spaces.ofFuncs,
      Spaces.ofTables, ← listed.memories]
  · simp [Context.start, Context.spaces, Spaces.ofImports, Spaces.ofGlobals, Spaces.ofMemories, Spaces.ofFuncs,
      Spaces.ofTables]

theorem beforeTables_spaces {opts : Options} {arrays : DataArrays} {module : Module} {before : Context}
    (listed : module.Listed) (ran : beforeTables module (Context.start opts arrays module) = .ok ((), before)) :
    Sound before ∧ before.spaces =
      ⟨(List.range module.funcs.length).map fun index => some (.func index),
        (List.range module.globals.length).map fun index => some (.global index),
        (List.range module.memories.length).map fun index => some (.memory index),
        (module.imported .table ++ List.range module.tables.length).map fun index => some (.table index)⟩ := by
  obtain ⟨sound, spaces⟩ := (beforeTables_adds module).run ran (start_sound opts arrays module)
  exact ⟨sound, spaces.trans (listed.spaces opts arrays)⟩

/-- The vectors after the translation of a module. -/
theorem translateModule_spaces {opts : Options} {arrays : DataArrays} {module : Module} {context : Context}
    (listed : module.Listed) (ran : translateModule opts arrays module = .ok context) :
    context.spaces =
      ⟨(List.range module.funcs.length).map fun index => some (.func index),
        (List.range module.globals.length).map fun index => some (.global index),
        (List.range module.memories.length).map fun index => some (.memory index),
        (module.imported .table ++ List.range module.tables.length).map fun index => some (.table index)⟩ := by
  obtain ⟨before, ranBefore, ranTables⟩ := translateModule_tables.mp ran
  obtain ⟨sound, spaces⟩ := beforeTables_spaces listed ranBefore
  have fills : Adds before (fillTables module) 1 := fillTables_effect module fun elem _ _ => visitElem_adds elem
  rw [(fills.run ranTables sound).2, spaces, mul_one]

/-- The index spaces are mapped one to one exactly when no table is imported. -/
theorem translateModule_mapped_iff {opts : Options} {arrays : DataArrays} {module : Module} {context : Context}
    (listed : module.Listed) (ran : translateModule opts arrays module = .ok context) :
    Mapped context module ↔ module.imported .table = [] := by
  have spaces := translateModule_spaces listed ran
  constructor
  · intro mapped
    have tables : _ = context.tables.map (context.entities[·]?) := (congrArg Spaces.tables spaces).symm
    have lengths := congrArg List.length (tables.trans mapped.tables)
    rw [List.length_map, List.length_map, List.length_append] at lengths
    exact List.eq_nil_of_length_eq_zero (by omega)
  · intro none_
    rw [none_] at spaces
    exact ⟨congrArg Spaces.funcs spaces, congrArg Spaces.globs spaces, congrArg Spaces.mems spaces,
      congrArg Spaces.tables spaces⟩

/-- `(import "env" "f" (func))`, a function that calls it, and one entity of each other kind. -/
def callingModule : Module where
  name := []
  funcs := [⟨[], ⟨[], []⟩, [], []⟩, ⟨[], ⟨[], []⟩, [], [.instr (.call 0)]⟩]
  globals := [⟨[], .i32, true, [.const (.i32 0)]⟩]
  tables := [⟨[], .funcRef, ⟨2, none⟩⟩]
  memories := [⟨[], ⟨1, none⟩⟩]
  imports := [⟨"env".toList, "f".toList, .func, 0⟩]
  fields := [.func 1, .memory 0, .global 0, .table 0]
  exports := []
  elemSegments := [⟨.active, 0, .funcRef, [.const (.i32 0)], [.refFunc 1]⟩]

theorem callingModule_listed : callingModule.Listed := ⟨rfl, rfl, rfl, rfl⟩

theorem callingModule_completes : ∃ context,
    translateModule ⟨false, false, false, false, false, false, false⟩ [] callingModule = .ok context :=
  translateModule_completes (by decide +kernel)

theorem callingModule_mapped_iff : ∃ context, translateModule ⟨false, false, false, false, false, false, false⟩ []
    callingModule = .ok context ∧ (Mapped context callingModule ↔ callingModule.imported .table = []) := by
  obtain ⟨context, ran⟩ := callingModule_completes
  exact ⟨context, ran, translateModule_mapped_iff callingModule_listed ran⟩

/-- `(import "env" "t" (table 1 funcref))`. -/
def importedTable : Module where
  name := []
  funcs := []
  globals := []
  tables := [⟨[], .funcRef, ⟨1, none⟩⟩]
  memories := []
  imports := [⟨"env".toList, "t".toList, .table, 0⟩]
  fields := []
  exports := []
  elemSegments := []

/-- An imported table is declared twice. -/
theorem importedTable_twice : importedTable.Listed ∧ ∃ context,
    translateModule ⟨false, false, false, false, false, false, false⟩ [] importedTable = .ok context ∧
      ¬Mapped context importedTable := by
  refine ⟨⟨rfl, rfl, rfl, rfl⟩, _, rfl, fun mapped => ?_⟩
  have twice := mapped.tables
  cases twice

end WasmToLlvm.Modules
