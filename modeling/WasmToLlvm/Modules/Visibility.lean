import WasmToLlvm.Modules.Compiled

/-!
# Visibility

Which functions, globals and memories can be seen from outside of a translated module.
-/

set_option autoImplicit false

namespace WasmToLlvm.Modules

open Llvm Wasm Block Instruction Library

/-! ## Linkages before the exports -/

def mainNames : List Name := ["__original_main".toList, "__main_argc_argv".toList]

/-- A function with the name of the main function. -/
def MainLike (opts : Options) (name : Name) : Prop :=
  if opts.fixNames then
    ∃ plain ∈ mainNames, name = plain ∨ opts.noRemoveDollar = false ∧ name = '$' :: plain
  else name = "main".toList

/-- The linkage with which an entity is declared. -/
def FirstLinkage (opts : Options) (module : Module) (entity : Entity) (linkage : Linkage) : Prop :=
  match entity with
  | .func index => (index ∈ module.imported .func → linkage = .external) ∧ (linkage = .external →
      index ∈ module.imported .func ∨ ∃ func, module.funcs[index]? = some func ∧ MainLike opts (objectName opts func.name))
  | .global index => linkage = .external ↔ index ∈ module.imported .global
  | .memory index => linkage = .external ↔ index ∈ module.imported .memory
  | .table _ => linkage = .external
  | .dataSegment => linkage = .internal
  | .intrinsic => linkage = .external

structure Linked (opts : Options) (module : Module) (context : Context) : Prop where
  created : context.entities.length = context.llvmModule.values.length
  first : ∀ (id : Nat) (entity : Entity) (linkage : Linkage), context.entities[id]? = some entity →
    linkageAt context.llvmModule id = some linkage → FirstLinkage opts module entity linkage

def linkGrading (opts : Options) (module : Module) : Grading Context Unit :=
  .ofPreorder (fun before after => Linked opts module before → Linked opts module after) (fun _ linked => linked)
    fun left right linked => right (left linked)

/-- A computation that gives values their first linkages. -/
abbrev Links (opts : Options) (module : Module) {α : Type} (before : Context) (emit : Translate α) : Prop :=
  Effect (linkGrading opts module) before emit ()

section Changes

variable {opts : Options} {module : Module} {before : Context} {id other : Nat}

theorem linkageAt_update {change : GlobalValue Body → GlobalValue Body} {llvmModule : Llvm.Module Body}
    (same : ∀ gv, symbolOf (change gv) = symbolOf gv) :
    linkageAt (llvmModule.update id change) other = linkageAt llvmModule other := by
  rw [linkageAt, symbolAt_update_same same, linkageAt]

theorem linkageAt_clearName {llvmModule : Llvm.Module Body} {name : Name} :
    linkageAt (clearName name llvmModule) id = linkageAt llvmModule id := by
  unfold clearName
  split
  · exact linkageAt_setName
  · rfl

theorem links_modify {update : Context → Context} (entities : (update before).entities = before.entities)
    (length : (update before).llvmModule.values.length = before.llvmModule.values.length)
    (linkages : ∀ id, linkageAt (update before).llvmModule id = linkageAt before.llvmModule id) :
    Links opts module before (modify update) := by
  refine .modify fun linked => ⟨by rw [entities, length, linked.created], fun id entity linkage isEntity isLinkage => ?_⟩
  rw [entities] at isEntity
  rw [linkages] at isLinkage
  exact linked.first id entity linkage isEntity isLinkage

theorem Linked.create {entity : Entity} {name : Name} {linkage : Linkage} {object : GlobalObject Body}
    (linked : Linked opts module before) (first : FirstLinkage opts module entity linkage) :
    Linked opts module { before with
      llvmModule := (before.llvmModule.create name linkage object).2
      entities := before.entities ++ [entity] } := by
  have length : (before.llvmModule.create name linkage object).2.values.length = before.llvmModule.values.length + 1 :=
    List.length_append ..
  refine ⟨?_, fun id other linkage' isOther isLinkage => ?_⟩
  · rw [length]
    exact (List.length_append ..).trans (congrArg (· + 1) linked.created)
  · by_cases older : id < before.llvmModule.values.length
    · rw [linkageAt, create_older older] at isLinkage
      rw [List.getElem?_append_left (linked.created ▸ older)] at isOther
      exact linked.first id other linkage' isOther isLinkage
    · have bound := (List.getElem?_eq_some_iff.mp isOther).1
      rw [List.length_append, List.length_singleton, linked.created] at bound
      have last : id = before.llvmModule.values.length := by omega
      rw [last, linkageAt, create_new] at isLinkage
      rw [last, ← linked.created, List.getElem?_concat_length] at isOther
      cases isOther
      cases isLinkage
      exact first

theorem links_create {entity : Entity} {name : Name} {linkage : Linkage} {object : GlobalObject Body}
    (first : FirstLinkage opts module entity linkage) :
    Links opts module before (createGlobalValue entity name linkage object) where
  run ran linked := by
    cases ran
    exact linked.create first

theorem setInitializer_links {init : Constant} : Links opts module before (updateModule fun llvmModule =>
    llvmModule.update id fun value => value.setInitializer init) :=
  links_modify rfl (Llvm.Module.update_length ..) fun _ => linkageAt_update (symbolOf_setInitializer init)

end Changes

section Steps

variable {opts : Options} {module : Module} {before after : Context} {index : Nat} {isExternal : Bool}

theorem linkageOf_external : linkageOf isExternal = .external ↔ isExternal = true := by
  cases isExternal <;> simp [linkageOf]

theorem declareFunc_links (imported : index ∈ module.imported .func) :
    Links opts module before (declareFunc index true) := by
  unfold declareFunc
  refine .get (at_reads.skip fun _ => convertFuncType_reads.skip fun {pair _} _ => ?_)
  obtain ⟨params, result⟩ := pair
  have first : FirstLinkage opts module (.func index) .external := ⟨fun _ => rfl, fun _ => .inl imported⟩
  refine (links_create first).skip fun _ => Effect.skip ?_ fun _ => .pure _
  exact links_modify rfl rfl fun _ => rfl

theorem visitGlobal_links (imported : index ∈ module.imported .global ↔ isExternal = true) :
    Links opts module before (visitGlobal index isExternal) := by
  have pushed : ∀ {middle : Context} {id : Nat}, Links opts module middle (modify fun context =>
      { context with globs := context.globs ++ [id], globIndex := context.globIndex + 1 }) :=
    links_modify rfl rfl fun _ => rfl
  have first : FirstLinkage opts module (.global index) (linkageOf isExternal) :=
    linkageOf_external.trans imported.symm
  unfold visitGlobal
  refine .get (at_reads.skip fun _ => convertType_reads.skip fun _ => (links_create first).skip fun _ => ?_)
  cases isExternal with
  | true => exact pushed
  | false => exact visitInitExpr_reads.skip fun _ => setInitializer_links.skip fun _ => pushed

theorem visitTable_links : Links opts module before (visitTable index isExternal) := by
  have first : FirstLinkage opts module (.table index) .external := rfl
  unfold visitTable
  refine .get (at_reads.skip fun _ => .ite (fun _ => .throw _) fun _ => ?_)
  exact (links_create first).skip fun _ => links_modify rfl rfl fun _ => rfl

theorem declareMemory_links (imported : index ∈ module.imported .memory ↔ isExternal = true) :
    Links opts module before (declareMemory index isExternal) := by
  have first : FirstLinkage opts module (.memory index) (linkageOf isExternal) :=
    linkageOf_external.trans imported.symm
  unfold declareMemory
  refine .get (at_reads.skip fun _ => ?_)
  exact (links_create first).skip fun _ => links_modify rfl rfl fun _ => rfl

theorem getRawData_links {bytes : List Byte} : Links opts module before (getRawData bytes) where
  run ran linked := by
    cases ran
    exact ⟨linked.created, linked.first⟩

theorem visitDataSegment_links (segment : DataSegment) : Links opts module before (visitDataSegment segment) := by
  unfold visitDataSegment
  refine .get (.ite (fun _ => .throw _) fun _ => at_reads.skip fun _ => at_reads.skip fun _ =>
    visitInitExpr_reads.skip fun {offset _} _ => ?_)
  refine .ite (fun _ => ?_) fun _ => .ite (fun _ => .pure _) fun _ => unwrapIntConstant_reads.skip fun _ => ?_
  · unfold createSplitSegment
    split
    · have first : FirstLinkage opts module .dataSegment .internal := rfl
      exact getRawData_links.skip fun _ => Effect.skip (links_create first) fun _ => .pure _
    · exact .throw _
  · have fresh : ∀ {before : Context} (mem size : Nat) (offset : BitVec 64), Links opts module before (do
        let init ← createMemInitializer size offset segment.data
        updateModule fun llvmModule => llvmModule.update mem fun value => value.setInitializer init) := by
      intro before mem size offset
      unfold createMemInitializer
      exact Effect.skip (copyData_reads.skip fun _ => getRawData_links) fun _ => setInitializer_links
    split
    · exact fresh _ _ _
    · exact fresh _ _ _
    · unfold modMemInitializer
      exact .get (at_reads.skip fun _ => copyData_reads.skip fun _ => links_modify rfl rfl fun _ => rfl)
    · exact .throw _

theorem nameImport_links (entity : Import) : Links opts module before (nameImport entity) :=
  links_modify rfl rfl fun _ => rfl

/-! ## The main function -/

/-- Names with a number have a dot, and these have none. -/
theorem mainNames_plain {plain : Name} (member : plain ∈ mainNames) : '.' ∉ plain ∧ '.' ∉ '$' :: plain := by
  simp only [mainNames, List.mem_cons, List.not_mem_nil, or_false] at member
  rcases member with rfl | rfl <;> decide

theorem renameMain_linkage {function id : Nat} {llvmModule : Llvm.Module Body} :
    linkageAt (renameMain function llvmModule) id = linkageAt llvmModule id ∨
      id = function ∧ functionName llvmModule function ∈ mainNames := by
  unfold renameMain
  split
  · rename_i isMain
    by_cases here : id = function
    · right
      refine ⟨here, ?_⟩
      simpa [mainNames] using isMain
    · left
      rw [linkageAt_setName, linkageAt_clearName, linkageAt, setLinkage_other here, linkageAt]
  · exact .inl rfl

theorem renameFunction_linkage {function id : Nat} {name new : Name} {llvmModule : Llvm.Module Body} :
    linkageAt (renameFunction function name new llvmModule) id = linkageAt llvmModule id := by
  unfold renameFunction
  split
  · exact linkageAt_setName
  · rfl

/-- A main name behind the removal of the dollar sign. -/
theorem removeDollarName_main {function : Nat} (distinct : Distinct before.llvmModule)
    (ran : removeDollarName function before = .ok ((), after)) :
    (∀ id, linkageAt after.llvmModule id = linkageAt before.llvmModule id) ∧
      ∀ plain ∈ mainNames, functionName after.llvmModule function = plain →
        functionName before.llvmModule function = plain ∨ functionName before.llvmModule function = '$' :: plain := by
  cases name : functionName before.llvmModule function with
  | nil => cases (removeDollarName_stops name).symm.trans ran
  | cons first rest =>
      by_cases dollar : first = '$'
      · unfold removeDollarName at ran
        rw [get_bind_run, name, dollar] at ran
        cases ran
        refine ⟨fun id => linkageAt_setName, fun plain member same => .inr ?_⟩
        obtain ⟨unique, chosen, self⟩ := setName_self function rest distinct
        have isUnique : functionName (before.llvmModule.setName function rest) function = unique := by
          rw [functionName_eq, self]
          cases symbol : symbolAt before.llvmModule function with
          | none => rw [functionName_eq, symbol] at name; cases name
          | some symbol => rfl
        have plainUnique : plain = unique := same.symm.trans isUnique
        rw [dollar, plainUnique, chosen.of_no_dot (plainUnique ▸ (mainNames_plain member).1)]
      · cases (removeDollarName_stays name dollar).symm.trans ran
        exact ⟨fun id => rfl, fun plain _ same => .inl (name.symm.trans same)⟩

/-- A value has another linkage after names are fixed only if it is the main function. -/
theorem fixNames_linkage {function id : Nat} (distinct : Distinct before.llvmModule)
    (ran : fixNames function before = .ok ((), after)) :
    linkageAt after.llvmModule id = linkageAt before.llvmModule id ∨
      id = function ∧ MainLike before.opts (functionName before.llvmModule function) := by
  unfold fixNames at ran
  rw [get_bind_run] at ran
  unfold MainLike
  by_cases fix : before.opts.fixNames = true
  · simp only [if_pos fix] at ran ⊢
    have renames : ∀ {middle : Context}, (do
        updateModule (renameMain function)
        updateModule (renameFunction function "memset".toList "memset_1".toList)
        updateModule (renameFunction function "memcpy".toList "memcpy_1".toList) : Translate Unit) middle =
          .ok ((), after) → linkageAt after.llvmModule id = linkageAt middle.llvmModule id ∨
            id = function ∧ functionName middle.llvmModule function ∈ mainNames := by
      intro middle ran
      cases ran
      show linkageAt (renameFunction _ _ _ (renameFunction _ _ _ (renameMain function middle.llvmModule))) id = _ ∨ _
      rw [renameFunction_linkage, renameFunction_linkage]
      exact renameMain_linkage
    by_cases removes : before.opts.noRemoveDollar = true
    · simp only [removes, Bool.not_true, Bool.false_eq_true, if_false] at ran
      refine (renames ran).imp_right fun main => ⟨main.1, _, main.2, .inl rfl⟩
    · have keeps : before.opts.noRemoveDollar = false := Bool.eq_false_iff.mpr removes
      simp only [keeps, Bool.not_false, if_true] at ran
      obtain ⟨_, middle, ranDollar, ran⟩ := bind_ok.mp ran
      obtain ⟨linkages, mains⟩ := removeDollarName_main distinct ranDollar
      rcases renames ran with same | ⟨here, main⟩
      · exact .inl (same.trans (linkages id))
      · refine .inr ⟨here, _, main, ?_⟩
        exact (mains _ main rfl).imp_right fun dollar => ⟨keeps, dollar⟩
  · simp only [if_neg fix] at ran ⊢
    split at ran
    · rename_i isMain
      cases ran
      by_cases here : id = function
      · exact .inr ⟨here, isMain⟩
      · left
        rw [linkageAt, setLinkage_other here, linkageAt]
    · cases ran
      exact .inl rfl

theorem MainLike.of_unique {taken : List Name} {last : Nat} {base : Name}
    (main : MainLike opts (uniqueName taken last base).1) : MainLike opts base := by
  unfold MainLike at main ⊢
  by_cases fix : opts.fixNames = true
  · rw [if_pos fix] at main ⊢
    obtain ⟨plain, member, same⟩ := main
    obtain ⟨noDot, noDotDollar⟩ := mainNames_plain member
    refine ⟨plain, member, same.imp (fun same => ?_) fun same => ⟨same.1, ?_⟩⟩
    · exact (uniqueName_of_no_dot noDot same).1
    · exact (uniqueName_of_no_dot noDotDollar same.2).1
  · rw [if_neg fix] at main ⊢
    have noDot : '.' ∉ "main".toList := by decide
    exact (uniqueName_of_no_dot noDot main).1

theorem Relabels.length (relabels : Relabels before after) :
    after.llvmModule.values.length = before.llvmModule.values.length := by
  rw [← Llvm.Module.objects_length, relabels.objects, Llvm.Module.objects_length]

/-- A function that is defined in the module is declared, and its name is fixed. -/
theorem declareOne_links {function : Nat} {first middle : Context} (own : index ∉ module.imported .func)
    (funcs : before.module.funcs[index]? = module.funcs[index]?) (isOpts : before.opts = opts) (named : Named before)
    (linked : Linked opts module before) (ranDeclare : declareFunc index false before = .ok (function, first))
    (ranFix : fixNames function first = .ok ((), middle)) : Linked opts module middle := by
  have namedFirst := (declareFunc_ok named ranDeclare).named
  have relabels : Relabels first middle := (fixNames_relabels function).run ranFix
  have lengths := relabels.length
  unfold declareFunc at ranDeclare
  rw [get_bind_run] at ranDeclare
  obtain ⟨func, _, ranAt, ran⟩ := bind_ok.mp ranDeclare
  obtain ⟨found, same⟩ := at_ok ranAt
  cases same
  obtain ⟨⟨params, result⟩, _, ranType, ran⟩ := bind_ok.mp ran
  cases convertFuncType_reads.same ranType
  obtain ⟨created, _, ranCreate, ran⟩ := bind_ok.mp ran
  cases ranCreate
  cases ran
  have internal : FirstLinkage opts module (.func index) (linkageOf false) :=
    ⟨fun imported => absurd imported own, fun external => nomatch external⟩
  have linkedFirst : Linked opts module { before with
      llvmModule := (before.llvmModule.create (objectName before.opts func.name) (linkageOf false)
        (.function params result none)).2
      entities := before.entities ++ [.func index] } := linked.create internal
  have name : functionName (before.llvmModule.create (objectName before.opts func.name) (linkageOf false)
      (.function params result none)).2 before.llvmModule.values.length =
        (uniqueName before.llvmModule.names before.llvmModule.lastUnique (objectName before.opts func.name)).1 := by
    rw [functionName_eq, create_new]
    rfl
  rw [relabels.context]
  refine ⟨linkedFirst.created.trans lengths.symm, fun id entity linkage isEntity isLinkage => ?_⟩
  cases fixNames_linkage namedFirst.distinct ranFix with
  | inl same => exact linkedFirst.first id entity linkage isEntity (same.symm.trans isLinkage)
  | inr main =>
      obtain ⟨here, main⟩ := main
      have isEntity : (before.entities ++ [.func index])[id]? = some entity := isEntity
      rw [here, ← linked.created, List.getElem?_concat_length] at isEntity
      cases isEntity
      refine ⟨fun imported => absurd imported own, fun _ => .inr ⟨func, funcs ▸ found, ?_⟩⟩
      have main : MainLike before.opts (functionName (before.llvmModule.create (objectName before.opts func.name)
        (linkageOf false) (.function params result none)).2 before.llvmModule.values.length) := main
      rw [name, isOpts] at main
      exact main.of_unique

theorem declareFuncs_links {indices functions : List Nat} (own : ∀ index ∈ indices, index ∉ module.imported .func)
    (funcs : ∀ index ∉ module.imported .func, before.module.funcs[index]? = module.funcs[index]?)
    (isOpts : before.opts = opts) (named : Named before) (linked : Linked opts module before)
    (ran : declareFuncs indices before = .ok (functions, after)) : Linked opts module after := by
  induction indices generalizing before functions with
  | nil =>
      cases ran
      exact linked
  | cons index rest ih =>
      obtain ⟨function, first, ranFirst, ran⟩ := bind_ok.mp ran
      obtain ⟨_, middle, ranNames, ran⟩ := bind_ok.mp ran
      obtain ⟨functions, last, ranRest, ranPure⟩ := bind_ok.mp ran
      cases ranPure
      have ownFirst := own index List.mem_cons_self
      have declared : Remains module before first := (declareFunc_named index false).run ranFirst named
      have fixed : Remains module first middle := (fixNames_named function).run ranNames declared.named
      have linkedMiddle := declareOne_links ownFirst (funcs index ownFirst) isOpts named linked ranFirst ranNames
      refine ih (fun index member => own index (List.mem_cons_of_mem _ member)) (fun index outside => ?_) ?_ fixed.named
        linkedMiddle ranRest
      · rw [fixed.funcs index outside, declared.funcs index outside, funcs index outside]
      · rw [fixed.opts, declared.opts, isOpts]

theorem visitFuncs_links (indices functions : List Nat) :
    Links opts module before (visitFuncs indices functions) := by
  have first : FirstLinkage opts module .intrinsic .external := rfl
  refine visitFuncs_effect indices functions (fun declaration _ _ => ?_) fun _ _ _ => ?_
  · refine getOrInsertDeclaration_effect declaration (fun _ => (links_create first).skip fun _ => .pure _) fun _ _ => ?_
    exact links_modify rfl (Llvm.Module.setName_length ..) fun _ => linkageAt_setName
  · exact links_modify rfl (Llvm.Module.update_length ..) fun _ => linkageAt_update (symbolOf_setBody _)

theorem visitImport_links {entity : Import} (member : entity ∈ module.imports) :
    Links opts module before (visitImport entity) := by
  have imported : ∀ kind, entity.kind = kind → entity.index ∈ module.imported kind := fun kind isKind =>
    List.mem_map.mpr ⟨entity, List.mem_filter.mpr ⟨member, decide_eq_true isKind⟩, rfl⟩
  unfold visitImport
  refine (nameImport_links entity).skip fun _ => ?_
  cases kind : entity.kind with
  | func => exact (declareFunc_links (imported _ kind)).skip fun _ => .pure _
  | memory => exact declareMemory_links (iff_of_true (imported _ kind) rfl)
  | global => exact visitGlobal_links (iff_of_true (imported _ kind) rfl)
  | table => exact visitTable_links
  | tag => exact .pure _

theorem visitGlobals_links (indices : List Nat) :
    Links opts module before (visitGlobals (module.imported .global) indices) := by
  induction indices generalizing before with
  | nil => exact .pure _
  | cons index rest ih =>
      unfold visitGlobals
      by_cases member : index ∈ module.imported .global
      · rw [if_neg (not_not.mpr member)]
        exact ih
      · rw [if_pos member]
        exact (visitGlobal_links (iff_of_false member Bool.false_ne_true)).skip fun _ => ih

theorem declareEntities_links (listed : module.Listed) : Links opts module before (declareEntities module) := by
  have distinct : (module.imported .memory ++ module.definedMemories).Nodup := listed.memories ▸ List.nodup_range
  have own : ∀ index ∈ module.definedMemories, index ∉ module.imported .memory :=
    fun index member imported => (List.nodup_append.mp distinct).2.2 index imported index member rfl
  unfold declareEntities
  refine .get (.ite (fun _ => .throw _) fun _ => ?_)
  refine (Effect.forM_one fun entity member _ => visitImport_links member).skip fun _ => ?_
  refine (visitGlobals_links _).skip fun _ => .forM_one fun index member _ => ?_
  exact declareMemory_links (iff_of_false (own index member) Bool.false_ne_true)

end Steps

/-! ## Exports -/

/-- The value for an entity that an export can make external. -/
def Context.idOf (context : Context) (kind : ExternalKind) (index : Nat) : Option Nat :=
  match kind with
  | .func => context.funcs[index]?
  | .global => context.globs[index]?
  | .memory => context.mems[index]?
  | .table | .tag => none

def entityOf (kind : ExternalKind) (index : Nat) : Option Entity :=
  match kind with
  | .func => some (.func index)
  | .global => some (.global index)
  | .memory => some (.memory index)
  | .table | .tag => none

def Exported (exports : List Export) (kind : ExternalKind) (index : Nat) : Prop :=
  ∃ entity ∈ exports, entity.kind = kind ∧ entity.index = index

/-- The main function is external without an export. -/
def IsMain (opts : Options) (module : Module) (kind : ExternalKind) (index : Nat) : Prop :=
  kind = .func ∧ ∃ func, module.funcs[index]? = some func ∧ MainLike opts (objectName opts func.name)

/-- Entities are in their places in the vectors. -/
def Placed (context : Context) : Prop :=
  ∀ (kind : ExternalKind) (index id : Nat), context.idOf kind index = some id → context.entities[id]? = entityOf kind index

/-- What is imported or exported is external, and besides only the main function. The
variables of data segments are internal. -/
structure Visible (opts : Options) (module : Module) (exports : List Export) (context : Context) : Prop where
  linkage : ∀ (kind : ExternalKind) (index id : Nat), context.idOf kind index = some id →
    ∃ linkage, linkageAt context.llvmModule id = some linkage ∧
      (index ∈ module.imported kind ∨ Exported exports kind index → linkage = .external) ∧
      (linkage = .external →
        index ∈ module.imported kind ∨ Exported exports kind index ∨ IsMain opts module kind index)
  hidden : ∀ id : Nat, context.entities[id]? = some .dataSegment → linkageAt context.llvmModule id = some .internal

section Exports

variable {opts : Options} {module : Module} {before after : Context} {done : List Export} {entity : Export}

theorem entityOf_inj {kind kind' : ExternalKind} {index index' : Nat} {found : Entity}
    (first : entityOf kind index = some found) (second : entityOf kind' index' = some found) :
    kind = kind' ∧ index = index' := by
  cases kind <;> cases first <;> cases kind' <;> cases second <;> exact ⟨rfl, rfl⟩

theorem linkageAt_found {id : Nat} (inside : id < before.llvmModule.values.length) :
    ∃ linkage, linkageAt before.llvmModule id = some linkage :=
  ⟨_, by rw [linkageAt, symbolAt, List.getElem?_eq_getElem inside]; rfl⟩

/-- Nothing is exported yet. -/
theorem Linked.visible (linked : Linked opts module before) (placed : Placed before) :
    Visible opts module [] before := by
  have none_ : ∀ kind index, ¬Exported [] kind index := by
    intro kind index exported
    obtain ⟨entity, member, _⟩ := exported
    exact absurd member List.not_mem_nil
  have found : ∀ {id : Nat} {entity : Entity}, before.entities[id]? = some entity →
      ∃ linkage, linkageAt before.llvmModule id = some linkage ∧ FirstLinkage opts module entity linkage := by
    intro id entity isEntity
    have inside := (List.getElem?_eq_some_iff.mp isEntity).1
    rw [linked.created] at inside
    obtain ⟨linkage, isLinkage⟩ := linkageAt_found inside
    exact ⟨linkage, isLinkage, linked.first id entity linkage isEntity isLinkage⟩
  constructor
  · intro kind index id isId
    have isEntity := placed kind index id isId
    cases kind with
    | func =>
        obtain ⟨linkage, isLinkage, imported, external⟩ := found isEntity
        refine ⟨linkage, isLinkage, fun visible => imported (visible.resolve_right (none_ _ _)), fun isExternal => ?_⟩
        exact (external isExternal).imp_right fun main => .inr ⟨rfl, main⟩
    | global =>
        obtain ⟨linkage, isLinkage, external⟩ := found isEntity
        exact ⟨linkage, isLinkage, fun visible => external.mpr (visible.resolve_right (none_ _ _)),
          fun isExternal => .inl (external.mp isExternal)⟩
    | memory =>
        obtain ⟨linkage, isLinkage, external⟩ := found isEntity
        exact ⟨linkage, isLinkage, fun visible => external.mpr (visible.resolve_right (none_ _ _)),
          fun isExternal => .inl (external.mp isExternal)⟩
    | table => cases isId
    | tag => cases isId
  · intro id isEntity
    obtain ⟨linkage, isLinkage, hidden⟩ := found isEntity
    have hidden : linkage = .internal := hidden
    rw [isLinkage, hidden]

/-- An export makes the value for its entity external, and no other. -/
theorem visitExport_linkage (ran : visitExport entity before = .ok ((), after)) (id : Nat) :
    linkageAt after.llvmModule id = if before.idOf entity.kind entity.index = some id then
      (linkageAt before.llvmModule id).map fun _ => .external else linkageAt before.llvmModule id := by
  have external : ∀ other : Nat, linkageAt (before.llvmModule.setLinkage other .external) id =
      if some other = some id then (linkageAt before.llvmModule id).map fun _ => .external
        else linkageAt before.llvmModule id := by
    intro other
    by_cases here : other = id
    · rw [if_pos (congrArg some here), here, linkageAt, setLinkage_self, linkageAt]
      cases symbolAt before.llvmModule id <;> rfl
    · rw [if_neg fun same => here (Option.some.inj same), linkageAt, setLinkage_other fun same => here same.symm,
        linkageAt]
  unfold visitExport at ran
  rw [get_bind_run] at ran
  cases kind : entity.kind with
  | func =>
      rw [kind] at ran
      obtain ⟨function, middle, ranExport, ran⟩ := bind_ok.mp ran
      obtain ⟨found, same⟩ := exportEntity_ok ranExport
      cases same
      cases ran
      have isId : before.idOf .func entity.index = some function := found
      show linkageAt (exportName _ _ _ (before.llvmModule.setLinkage function .external)) id = _
      rw [linkageAt_exportName, external, isId]
  | memory =>
      rw [kind] at ran
      obtain ⟨mem, middle, ranExport, ran⟩ := bind_ok.mp ran
      obtain ⟨found, same⟩ := exportEntity_ok ranExport
      cases same
      cases ran
      have isId : before.idOf .memory entity.index = some mem := found
      rw [external, isId]
  | global =>
      rw [kind] at ran
      obtain ⟨global, middle, ranExport, ran⟩ := bind_ok.mp ran
      obtain ⟨found, same⟩ := exportEntity_ok ranExport
      cases same
      cases ran
      have isId : before.idOf .global entity.index = some global := found
      rw [external, isId]
  | table =>
      rw [kind] at ran
      cases ran
      rfl
  | tag =>
      rw [kind] at ran
      cases ran
      rfl

theorem Relabels.idOf (relabels : Relabels before after) (kind : ExternalKind) (index : Nat) :
    after.idOf kind index = before.idOf kind index := by
  rw [relabels.context]
  cases kind <;> rfl

theorem Relabels.entities (relabels : Relabels before after) : after.entities = before.entities := by
  rw [relabels.context]

theorem Placed.relabels (placed : Placed before) (relabels : Relabels before after) : Placed after := by
  intro kind index id isId
  rw [relabels.idOf] at isId
  rw [relabels.entities]
  exact placed kind index id isId

theorem exported_concat {kind : ExternalKind} {index : Nat} : Exported (done ++ [entity]) kind index ↔
    Exported done kind index ∨ entity.kind = kind ∧ entity.index = index := by
  unfold Exported
  simp [or_and_right, exists_or]

theorem Visible.export (visible : Visible opts module done before) (placed : Placed before)
    (ran : visitExport entity before = .ok ((), after)) : Visible opts module (done ++ [entity]) after := by
  have relabels : Relabels before after := (visitExport_relabels entity).run ran
  have linkages := visitExport_linkage ran
  constructor
  · intro kind index id isId
    rw [relabels.idOf] at isId
    obtain ⟨linkage, isLinkage, external, allowed⟩ := visible.linkage kind index id isId
    have isEntity := placed kind index id isId
    rw [linkages id]
    by_cases here : before.idOf entity.kind entity.index = some id
    · rw [if_pos here, isLinkage]
      refine ⟨.external, rfl, fun _ => rfl, fun _ => .inr (.inl ⟨entity, by simp, ?_⟩)⟩
      have isOther := placed _ _ id here
      cases found : entityOf kind index with
      | none => cases kind <;> cases found <;> cases isId
      | some entity' => exact entityOf_inj (isOther.symm.trans (isEntity.trans found)) found
    · rw [if_neg here]
      have other : ¬(entity.kind = kind ∧ entity.index = index) := by
        intro isPlace
        rw [isPlace.1, isPlace.2] at here
        exact here isId
      have same : Exported (done ++ [entity]) kind index ↔ Exported done kind index := by
        rw [exported_concat, or_iff_left other]
      refine ⟨linkage, isLinkage, ?_⟩
      rw [same]
      exact ⟨external, allowed⟩
  · intro id isEntity
    rw [relabels.entities] at isEntity
    have apart : before.idOf entity.kind entity.index ≠ some id := by
      intro isId
      have isOther := (placed _ _ id isId).symm.trans isEntity
      cases kind : entity.kind <;> rw [kind] at isOther <;> cases isOther
    rw [linkages id, if_neg apart]
    exact visible.hidden id isEntity

theorem Visible.exports {rest : List Export} (visible : Visible opts module done before) (placed : Placed before)
    (ran : rest.forM visitExport before = .ok ((), after)) : Visible opts module (done ++ rest) after := by
  induction rest generalizing before done with
  | nil =>
      cases ran
      rw [List.append_nil]
      exact visible
  | cons entity rest ih =>
      obtain ⟨middle, ranFirst, ranRest⟩ := forM_cons_ok.mp ran
      have relabels : Relabels before middle := (visitExport_relabels entity).run ranFirst
      have whole := ih (visible.export placed ranFirst) (placed.relabels relabels) ranRest
      rwa [List.append_assoc] at whole

end Exports

/-! ## The module -/

/-- Only names and contents differ. -/
structure KeepsLinkages (before after : Context) : Prop where
  context : after = { before with llvmModule := after.llvmModule }
  linkages : ∀ id, linkageAt after.llvmModule id = linkageAt before.llvmModule id

def linkageGrading : Grading Context Unit :=
  .ofPreorder KeepsLinkages (fun _ => ⟨rfl, fun _ => rfl⟩) fun left right =>
    ⟨by rw [right.context, left.context], fun id => (right.linkages id).trans (left.linkages id)⟩

section Module

variable {opts : Options} {arrays : DataArrays} {module : Module} {exports : List Export} {before after context : Context}

theorem KeepsLinkages.idOf (keeps : KeepsLinkages before after) (kind : ExternalKind) (index : Nat) :
    after.idOf kind index = before.idOf kind index := by
  rw [keeps.context]
  cases kind <;> rfl

theorem Visible.keeps (visible : Visible opts module exports before) (keeps : KeepsLinkages before after) :
    Visible opts module exports after := by
  constructor
  · intro kind index id isId
    rw [keeps.idOf] at isId
    rw [keeps.linkages]
    exact visible.linkage kind index id isId
  · intro id isEntity
    rw [keeps.context] at isEntity
    rw [keeps.linkages]
    exact visible.hidden id isEntity

theorem assignDefaultNames_linkages (functions : List Nat) (index : Nat) :
    Effect linkageGrading before (assignDefaultNames functions index) () := by
  induction functions generalizing before index with
  | nil => exact .pure _
  | cons function functions ih =>
      have named : ∀ id, linkageAt (defaultName index function before.llvmModule) id = linkageAt before.llvmModule id := by
        intro id
        unfold defaultName
        split
        · exact linkageAt_setName
        · rfl
      unfold assignDefaultNames
      exact Effect.skip (.modify ⟨rfl, named⟩) fun _ => ih (index + 1)

theorem fillTables_linkages : Effect linkageGrading before (fillTables module) () := by
  have visits : ∀ elem ∈ module.elemSegments, ∀ before, Effect linkageGrading before (visitElem elem) 1 := by
    intro elem _ before
    refine ⟨fun ran => ?_⟩
    obtain ⟨id, gv, init, _, replaces⟩ := visitElem_ok ran
    cases replaces with
    | set empty => exact ⟨rfl, fun _ => linkageAt_update (symbolOf_setInitializer init)⟩
    | unused full unused => exact ⟨rfl, fun _ => rfl⟩
    | everywhere full used different =>
        exact ⟨rfl, fun id => by rw [linkageAt, symbolAt_replaceAllUsesWith, linkageAt]⟩
  exact fillTables_effect module visits

/-- The state before the exports. -/
theorem beforeExports_linked (listed : module.Listed)
    (ran : beforeExports module (Context.start opts arrays module) = .ok ((), before)) : Linked opts module before := by
  obtain ⟨_, declared, ranDeclare, ran⟩ := bind_ok.mp ran
  obtain ⟨_, filled, ranFill, ran⟩ := bind_ok.mp ran
  obtain ⟨functions, announced, ranFuncs, ran⟩ := bind_ok.mp ran
  obtain ⟨_, tables, ranTables, ranBodies⟩ := bind_ok.mp ran
  have start : Linked opts module (Context.start opts arrays module) := ⟨rfl, fun id entity linkage found => nomatch found⟩
  have linkedDeclared := (declareEntities_links listed).run ranDeclare start
  have fills : Links opts module declared (module.dataSegments.forM visitDataSegment) :=
    Effect.forM_one fun segment _ _ => visitDataSegment_links segment
  have linkedFilled := fills.run ranFill linkedDeclared
  have remains := (declareEntities_named module).run ranDeclare (start_named opts arrays module)
  obtain ⟨namedFilled, steady⟩ := (visitDataSegments_leave _).run ranFill remains.named
  have funcs : ∀ index ∉ module.imported .func, filled.module.funcs[index]? = module.funcs[index]? := by
    intro index own
    rw [steady.module]
    exact remains.funcs index own
  have linkedFuncs := declareFuncs_links (fun index member => listed.not_imported member) funcs
    (steady.opts.trans remains.opts) namedFilled linkedFilled ranFuncs
  have visits : Links opts module announced ((List.range module.tables.length).forM fun index => visitTable index false) :=
    Effect.forM_one fun index _ _ => visitTable_links
  exact (visitFuncs_links _ _).run ranBodies (visits.run ranTables linkedFuncs)

theorem translateModule_placed (listed : module.Listed) (ran : translateModule opts arrays module = .ok context) :
    Placed context := by
  have spaces := translateModule_spaces listed ran
  have place : ∀ {kind : Nat → Entity} {ids : List Nat} {count index id : Nat},
      ids.map (context.entities[·]?) = (List.range count).map (fun index => some (kind index)) →
        ids[index]? = some id → context.entities[id]? = some (kind index) := by
    intro kind ids count index id same found
    have entry := congrArg (·[index]?) same
    simp only [List.getElem?_map, found, Option.map_some] at entry
    obtain ⟨place, isPlace, isEntity⟩ := Option.map_eq_some_iff.mp entry.symm
    obtain ⟨inside, isIndex⟩ := List.getElem?_eq_some_iff.mp isPlace
    rw [List.getElem_range] at isIndex
    rw [← isEntity, isIndex]
  intro kind index id isId
  cases kind with
  | func => exact place (congrArg Spaces.funcs spaces) isId
  | global => exact place (congrArg Spaces.globs spaces) isId
  | memory => exact place (congrArg Spaces.mems spaces) isId
  | table => cases isId
  | tag => cases isId

/-- Imported and exported functions, globals and memories are external, and no others but the
main function; the data of segments is internal. -/
theorem translateModule_visible (listed : module.Listed) (ran : translateModule opts arrays module = .ok context) :
    Visible opts module module.exports context := by
  obtain ⟨before, after, ranBefore, ranNames, ranTables⟩ := translateModule_exports ran
  have linked := beforeExports_linked listed ranBefore
  have fills : KeepsLinkages after context := fillTables_linkages.run ranTables
  have names : Relabels before after := (nameFunctions_relabels module).run ranNames
  have placedContext := translateModule_placed listed ran
  have placed : Placed before := by
    intro kind index id isId
    have isEntity := placedContext kind index id (by rw [fills.idOf, names.idOf, isId])
    rw [fills.context] at isEntity
    exact names.entities ▸ isEntity
  obtain ⟨_, exported, ranExports, ranDefaults⟩ := bind_ok.mp ranNames
  rw [get_bind_run] at ranDefaults
  have visible := (linked.visible placed).exports placed ranExports
  have defaults : KeepsLinkages exported after := (assignDefaultNames_linkages _ _).run ranDefaults
  exact (visible.keeps defaults).keeps fills

theorem translateModule_visible_calling : ∃ context, translateModule ⟨false, false, false, false, false, false, false⟩ []
    callingModule = .ok context ∧
      Visible ⟨false, false, false, false, false, false, false⟩ callingModule callingModule.exports context := by
  obtain ⟨context, ran⟩ := callingModule_completes
  exact ⟨context, ran, translateModule_visible callingModule_listed ran⟩

end Module

end WasmToLlvm.Modules
