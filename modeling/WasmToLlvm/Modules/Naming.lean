import WasmToLlvm.Modules.Frames
import WasmToLlvm.Modules.Symbols

/-!
# Names through the phases

Different values have different names in every phase. Most phases leave the symbols that
there are alone; only declaring a function and visiting an export change names.
-/

set_option autoImplicit false

namespace WasmToLlvm.Modules

open Llvm Wasm Block Instruction Library

/-- Names differ, and the vector of functions has different functions. -/
structure Named (context : Context) : Prop where
  distinct : Distinct context.llvmModule
  functions : ∀ id ∈ context.funcs, isFunctionAt context.llvmModule id
  nodup : context.funcs.Nodup

/-- The symbols that there are and the vector of functions stay. -/
structure Steady (before after : Context) : Prop where
  funcs : after.funcs = before.funcs
  opts : after.opts = before.opts
  module : after.module = before.module
  symbols : ∀ id symbol, symbolAt before.llvmModule id = some symbol → symbolAt after.llvmModule id = some symbol

theorem Steady.refl {context : Context} : Steady context context := ⟨rfl, rfl, rfl, fun _ _ same => same⟩

theorem Steady.trans {first second third : Context} (left : Steady first second) (right : Steady second third) :
    Steady first third :=
  ⟨right.funcs.trans left.funcs, right.opts.trans left.opts, right.module.trans left.module,
    fun id symbol same => right.symbols id symbol (left.symbols id symbol same)⟩

/-- A function keeps its symbol. -/
theorem Steady.function {before after : Context} {id : Nat} (steady : Steady before after)
    (isFunction : isFunctionAt before.llvmModule id) :
    symbolAt after.llvmModule id = symbolAt before.llvmModule id := by
  obtain ⟨symbol, same, _⟩ := Option.map_eq_some_iff.mp isFunction
  rw [same]
  exact steady.symbols id symbol same

theorem Steady.name {before after : Context} {id : Nat} (steady : Steady before after)
    (named : functionName before.llvmModule id ≠ []) :
    functionName after.llvmModule id = functionName before.llvmModule id := by
  cases symbol : symbolAt before.llvmModule id with
  | none => rw [functionName_eq, symbol] at named; exact absurd rfl named
  | some symbol' => exact functionName_congr ((steady.symbols id symbol' symbol).trans symbol.symm)

def steadyGrading : Grading Context Unit :=
  .ofPreorder (fun before after => Named before → Named after ∧ Steady before after)
    (fun _ named => ⟨named, .refl⟩)
    fun left right named => ⟨(right (left named).1).1, (left named).2.trans (right (left named).1).2⟩

/-- A computation that gives no value another symbol. -/
abbrev LeavesNames {α : Type} (before : Context) (emit : Translate α) : Prop :=
  Effect steadyGrading before emit ()

section Steady

variable {before : Context}

theorem leaves_modify {update : Context → Context} (funcs : (update before).funcs = before.funcs)
    (opts : (update before).opts = before.opts) (module : (update before).module = before.module)
    (symbols : ∀ id, symbolAt (update before).llvmModule id = symbolAt before.llvmModule id) :
    LeavesNames before (modify update) := by
  refine .modify fun named => ⟨⟨named.distinct.congr symbols, fun id member => ?_, ?_⟩,
    ⟨funcs, opts, module, fun id symbol same => (symbols id).trans same⟩⟩
  · rw [isFunctionAt, symbols id]
    exact named.functions id (funcs ▸ member)
  · rw [funcs]
    exact named.nodup

theorem leaves_updateModule {change : Llvm.Module Body → Llvm.Module Body}
    (symbols : ∀ id, symbolAt (change before.llvmModule) id = symbolAt before.llvmModule id) :
    LeavesNames before (updateModule change) :=
  leaves_modify rfl rfl rfl symbols

theorem createGlobalValue_leaves {entity : Entity} {name : Name} {linkage : Linkage} {object : GlobalObject Body} :
    LeavesNames before (createGlobalValue entity name linkage object) where
  run ran named := by
    cases ran
    have older : ∀ id symbol, symbolAt before.llvmModule id = some symbol →
        symbolAt (before.llvmModule.create name linkage object).2 id = some symbol := by
      intro id symbol same
      obtain ⟨gv, found, _⟩ := Option.map_eq_some_iff.mp same
      rw [create_older (List.getElem?_eq_some_iff.mp found).1, same]
    have functions : ∀ id ∈ before.funcs, isFunctionAt (before.llvmModule.create name linkage object).2 id := by
      intro id member
      obtain ⟨symbol, same, isFunction⟩ := Option.map_eq_some_iff.mp (named.functions id member)
      rw [isFunctionAt, older id symbol same, Option.map_some, isFunction]
    exact ⟨⟨named.distinct.create, functions, named.nodup⟩, ⟨rfl, rfl, rfl, older⟩⟩

theorem symbolOf_setInitializer (init : Constant) (gv : GlobalValue Body) :
    symbolOf (gv.setInitializer init) = symbolOf gv := by
  obtain ⟨name, linkage, object⟩ := gv
  cases object <;> rfl

theorem symbolOf_setBody (body : Body) (gv : GlobalValue Body) : symbolOf (gv.setBody body) = symbolOf gv := by
  obtain ⟨name, linkage, object⟩ := gv
  cases object <;> rfl

theorem setInitializer_leaves {id : Nat} {init : Constant} :
    LeavesNames before (updateModule fun llvmModule => llvmModule.update id fun value => value.setInitializer init) :=
  leaves_updateModule fun _ => symbolAt_update_same (symbolOf_setInitializer init)

theorem visitGlobal_leaves (index : Nat) (isExternal : Bool) : LeavesNames before (visitGlobal index isExternal) := by
  have pushed : ∀ {middle : Context} {id : Nat}, LeavesNames middle (modify fun context =>
      { context with globs := context.globs ++ [id], globIndex := context.globIndex + 1 }) :=
    leaves_modify rfl rfl rfl fun _ => rfl
  unfold visitGlobal
  refine .get (at_reads.skip fun _ => convertType_reads.skip fun _ => createGlobalValue_leaves.skip fun _ => ?_)
  cases isExternal with
  | true => exact pushed
  | false => exact visitInitExpr_reads.skip fun _ => setInitializer_leaves.skip fun _ => pushed

theorem visitTable_leaves (index : Nat) (isExternal : Bool) : LeavesNames before (visitTable index isExternal) := by
  unfold visitTable
  refine .get (at_reads.skip fun _ => .ite (fun _ => .throw _) fun _ => ?_)
  exact createGlobalValue_leaves.skip fun _ => leaves_modify rfl rfl rfl fun _ => rfl

theorem declareMemory_leaves (index : Nat) (isExternal : Bool) : LeavesNames before (declareMemory index isExternal) := by
  unfold declareMemory
  refine .get (at_reads.skip fun _ => ?_)
  exact createGlobalValue_leaves.skip fun _ => leaves_modify rfl rfl rfl fun _ => rfl

theorem getRawData_leaves {bytes : List Byte} : LeavesNames before (getRawData bytes) where
  run ran named := by
    cases ran
    exact ⟨⟨named.distinct, named.functions, named.nodup⟩, ⟨rfl, rfl, rfl, fun _ _ same => same⟩⟩

theorem visitDataSegment_leaves (segment : DataSegment) : LeavesNames before (visitDataSegment segment) := by
  unfold visitDataSegment
  refine .get (.ite (fun _ => .throw _) fun _ => at_reads.skip fun _ => at_reads.skip fun _ =>
    visitInitExpr_reads.skip fun {offset _} _ => ?_)
  refine .ite (fun _ => ?_) fun _ => .ite (fun _ => .pure _) fun _ => unwrapIntConstant_reads.skip fun _ => ?_
  · unfold createSplitSegment
    split
    · exact getRawData_leaves.skip fun _ => createGlobalValue_leaves.skip fun _ => .pure _
    · exact .throw _
  · have fresh : ∀ {before : Context} (mem size : Nat) (offset : BitVec 64), LeavesNames before (do
        let init ← createMemInitializer size offset segment.data
        updateModule fun llvmModule => llvmModule.update mem fun value => value.setInitializer init) := by
      intro before mem size offset
      unfold createMemInitializer
      exact Effect.skip (copyData_reads.skip fun _ => getRawData_leaves) fun _ => setInitializer_leaves
    split
    · exact fresh _ _ _
    · exact fresh _ _ _
    · unfold modMemInitializer
      exact .get (at_reads.skip fun _ => copyData_reads.skip fun _ => leaves_modify rfl rfl rfl fun _ => rfl)
    · exact .throw _

theorem symbolAt_replaceAllUsesWith (llvmModule : Llvm.Module Body) (old new : Constant) (id : Nat) :
    symbolAt (llvmModule.replaceAllUsesWith old new) id = symbolAt llvmModule id := by
  unfold symbolAt Llvm.Module.replaceAllUsesWith
  rw [List.getElem?_map]
  cases llvmModule.values[id]? with
  | none => rfl
  | some gv =>
      rw [Option.map_some, Option.map_some, Option.map_some]
      split
      · rw [symbolOf_setInitializer]
      · rfl

theorem visitElem_leaves (elem : ElemSegment) : LeavesNames before (visitElem elem) := by
  unfold visitElem
  refine .ite (fun _ => .throw _) fun _ => .ite (fun _ => .throw _) fun _ => .get (at_reads.skip fun _ =>
    at_reads.skip fun _ => visitInitExpr_reads.skip fun _ => unwrapIntConstant_reads.skip fun _ =>
      elemSlots_reads.skip fun _ => ?_)
  unfold replaceInitializer
  refine .get (at_reads.skip fun _ => ?_)
  split
  · refine .ite (fun _ => .ite (fun _ => .throw _) fun _ => ?_) fun _ => .pure _
    exact leaves_updateModule fun _ => symbolAt_replaceAllUsesWith _ _ _ _
  · exact setInitializer_leaves

end Steady

/-! ## Bodies -/

/-- The vector of functions stays, and what symbols are; a new name has a dot. -/
structure Dots (before after : Context) : Prop where
  funcs : after.funcs = before.funcs
  opts : after.opts = before.opts
  module : after.module = before.module
  symbols : ∀ id symbol, symbolAt before.llvmModule id = some symbol → ∃ name,
    symbolAt after.llvmModule id = some { symbol with name := name } ∧ (name = symbol.name ∨ '.' ∈ name)

theorem Steady.dots {before after : Context} (steady : Steady before after) : Dots before after :=
  ⟨steady.funcs, steady.opts, steady.module, fun id symbol same => ⟨symbol.name, steady.symbols id symbol same, .inl rfl⟩⟩

theorem Dots.trans {first second third : Context} (left : Dots first second) (right : Dots second third) :
    Dots first third where
  funcs := right.funcs.trans left.funcs
  opts := right.opts.trans left.opts
  module := right.module.trans left.module
  symbols id symbol same := by
    obtain ⟨name, sameMiddle, fromLeft⟩ := left.symbols id symbol same
    obtain ⟨name', sameAfter, fromRight⟩ := right.symbols id _ sameMiddle
    refine ⟨name', sameAfter, ?_⟩
    cases fromRight with
    | inl kept => exact kept.symm ▸ fromLeft
    | inr dot => exact .inr dot

/-- The name of a function is the old one, or has a dot. -/
theorem Dots.name {before after : Context} {id : Nat} (dots : Dots before after)
    (isFunction : isFunctionAt before.llvmModule id) :
    functionName after.llvmModule id = functionName before.llvmModule id ∨ '.' ∈ functionName after.llvmModule id := by
  obtain ⟨symbol, same, _⟩ := Option.map_eq_some_iff.mp isFunction
  obtain ⟨name, sameAfter, dot⟩ := dots.symbols id symbol same
  rw [functionName_eq, functionName_eq, same, sameAfter]
  exact dot

def dotGrading : Grading Context Unit :=
  .ofPreorder (fun before after => Named before → Named after ∧ Dots before after)
    (fun _ named => ⟨named, Steady.refl.dots⟩)
    fun left right named => ⟨(right (left named).1).1, (left named).2.trans (right (left named).1).2⟩

section Bodies

variable {before : Context}

theorem LeavesNames.dots {α : Type} {emit : Translate α} (leaves : LeavesNames before emit) :
    Effect dotGrading before emit () :=
  ⟨fun ran named => ⟨(leaves.run ran named).1, (leaves.run ran named).2.dots⟩⟩

/-- A value gets a name with a dot. -/
theorem setName_dots {id : Nat} {name : Name} (dot : '.' ∈ name) :
    Effect dotGrading before (updateModule fun llvmModule => llvmModule.setName id name) () := by
  refine .modify fun named => ?_
  obtain ⟨unique, chosen, self⟩ := setName_self id name named.distinct
  have dotted : '.' ∈ unique := by
    cases chosen with
    | free _ => exact dot
    | numbered _ _ _ _ => exact dot_mem_numbered _ _
  have symbols : ∀ other symbol, symbolAt before.llvmModule other = some symbol → ∃ name',
      symbolAt (before.llvmModule.setName id name) other = some { symbol with name := name' } ∧
        (name' = symbol.name ∨ '.' ∈ name') := by
    intro other symbol same
    by_cases here : other = id
    · rw [here] at same ⊢
      rw [self, same]
      exact ⟨unique, rfl, .inr dotted⟩
    · rw [setName_other here, same]
      exact ⟨symbol.name, rfl, .inl rfl⟩
  refine ⟨⟨named.distinct.setName, fun other member => ?_, named.nodup⟩, ⟨rfl, rfl, rfl, symbols⟩⟩
  obtain ⟨symbol, same, isFunction⟩ := Option.map_eq_some_iff.mp (named.functions other member)
  obtain ⟨name', sameAfter, _⟩ := symbols other symbol same
  rw [isFunctionAt, sameAfter]
  exact congrArg some isFunction

theorem visitFuncs_dots (indices functions : List Nat) :
    Effect dotGrading before (visitFuncs indices functions) () := by
  have inserts : ∀ (declaration : Declaration) (before : Context),
      LeavesNames before (insertDeclaration declaration) :=
    fun _ _ => createGlobalValue_leaves.skip fun _ => .pure _
  refine visitFuncs_effect indices functions (fun declaration _ dot => ?_) fun _ _ _ => ?_
  · refine getOrInsertDeclaration_effect declaration (fun _ => (inserts declaration _).dots) fun _ _ => setName_dots ?_
    exact List.mem_append_left _ dot
  · exact LeavesNames.dots (leaves_updateModule fun _ => symbolAt_update_same (symbolOf_setBody _))

end Bodies

/-! ## Functions -/

/-- A new function: its symbol is new, and it is put at the end of the vector. -/
structure DeclaresFunction (before : Context) (index : Nat) (isExternal : Bool) (id : Nat) (after : Context) :
    Prop where
  named : Named after
  funcs : after.funcs = before.funcs ++ [id]
  opts : after.opts = before.opts
  module : after.module = before.module
  fresh : symbolAt before.llvmModule id = none
  older : ∀ other symbol, symbolAt before.llvmModule other = some symbol →
    symbolAt after.llvmModule other = some symbol
  symbol : ∃ func unique, before.module.funcs[index]? = some func ∧
    symbolAt after.llvmModule id = some ⟨unique, linkageOf isExternal, true⟩ ∧
      (unique = [] ↔ objectName before.opts func.name = [])

theorem declareFunc_ok {before after : Context} {index id : Nat} {isExternal : Bool} (named : Named before)
    (ran : declareFunc index isExternal before = .ok (id, after)) : DeclaresFunction before index isExternal id after := by
  unfold declareFunc at ran
  rw [get_bind_run] at ran
  obtain ⟨func, middle, ranAt, ran⟩ := bind_ok.mp ran
  obtain ⟨found, same⟩ := at_ok ranAt
  cases same
  obtain ⟨pair, middle, ranType, ran⟩ := bind_ok.mp ran
  cases convertFuncType_reads.same ranType
  obtain ⟨params, result⟩ := pair
  obtain ⟨created, middle, ranCreate, ran⟩ := bind_ok.mp ran
  obtain ⟨namedMiddle, steady⟩ := createGlobalValue_leaves.run ranCreate named
  cases ranCreate
  cases ran
  have own : symbolAt (before.llvmModule.create (objectName before.opts func.name) (linkageOf isExternal)
      (.function params result none)).2 before.llvmModule.values.length = some _ := create_new
  have outside : symbolAt before.llvmModule before.llvmModule.values.length = none := by
    rw [symbolAt, List.getElem?_eq_none (Nat.le_refl _)]
    rfl
  have fresh : before.llvmModule.values.length ∉ before.funcs := by
    intro member
    obtain ⟨symbol, same, _⟩ := Option.map_eq_some_iff.mp (named.functions _ member)
    cases outside.symm.trans same
  refine ⟨⟨namedMiddle.distinct, fun other member => ?_, ?_⟩, rfl, rfl, rfl, outside, steady.symbols, func, _, found, own, ?_⟩
  · cases List.mem_append.mp member with
    | inl older => exact namedMiddle.functions other older
    | inr new =>
        cases List.mem_singleton.mp new
        show (symbolAt (before.llvmModule.create _ _ _).2 before.llvmModule.values.length).map _ = _
        rw [own]
        rfl
  · exact List.nodup_append.mpr ⟨named.nodup, List.pairwise_singleton _ _, fun other member _ same equal =>
      fresh (List.mem_singleton.mp same ▸ equal ▸ member)⟩
  · have nameless : [] ∉ before.llvmModule.names := fun member => (mem_names_iff.mp member).1 rfl
    rw [uniqueName_eq_nil_iff]
    exact and_iff_left nameless

/-- Names stay different, and functions and variables are what they were. -/
def Renames (before after : Llvm.Module Body) : Prop :=
  Distinct before → Distinct after ∧ ∀ id, isFunctionAt after id ↔ isFunctionAt before id

section Renames

variable {before after third : Llvm.Module Body} {id : Nat} {name : Name}

theorem Renames.refl : Renames before before := fun distinct => ⟨distinct, fun _ => Iff.rfl⟩

theorem Renames.trans (left : Renames before after) (right : Renames after third) : Renames before third := by
  intro distinct
  obtain ⟨distinctMiddle, kindsLeft⟩ := left distinct
  obtain ⟨distinctAfter, kindsRight⟩ := right distinctMiddle
  exact ⟨distinctAfter, fun id => (kindsRight id).trans (kindsLeft id)⟩

theorem Renames.setName : Renames before (before.setName id name) := by
  intro distinct
  refine ⟨distinct.setName, fun other => ?_⟩
  unfold isFunctionAt
  by_cases here : other = id
  · obtain ⟨unique, _, self⟩ := setName_self id name distinct
    rw [here, self, Option.map_map]
    rfl
  · rw [setName_other here]

theorem Renames.setLinkage {linkage : Linkage} : Renames before (before.setLinkage id linkage) := by
  intro distinct
  refine ⟨distinct.setLinkage, fun other => ?_⟩
  unfold isFunctionAt
  by_cases here : other = id
  · rw [here, setLinkage_self, Option.map_map]
    rfl
  · rw [setLinkage_other here]

theorem Renames.clearName : Renames before (clearName name before) := by
  unfold Modules.clearName
  split
  · exact .setName
  · exact .refl

theorem Renames.renameMain (function : Nat) : Renames before (renameMain function before) := by
  unfold Modules.renameMain
  split
  · exact (Renames.setLinkage.trans .clearName).trans .setName
  · exact .refl

theorem Renames.renameFunction (function : Nat) (name new : Name) :
    Renames before (renameFunction function name new before) := by
  unfold Modules.renameFunction
  split
  · exact .setName
  · exact .refl

theorem Renames.exportName (opts : Options) (function : Nat) (name : Name) :
    Renames before (exportName opts function name before) := by
  unfold Modules.exportName
  split
  · exact .refl
  · split
    · exact Renames.clearName.trans .setName
    · split
      · exact .setName
      · exact .refl

theorem Renames.defaultName (index function : Nat) : Renames before (defaultName index function before) := by
  unfold Modules.defaultName
  split
  · exact .setName
  · exact .refl

end Renames

/-! ## Phases -/

/-- What is left of the state before a phase: the options, and the functions of the module
that are not imported. -/
structure Remains (module : Module) (before after : Context) : Prop where
  named : Named after
  opts : after.opts = before.opts
  funcs : ∀ index ∉ module.imported .func, after.module.funcs[index]? = before.module.funcs[index]?

def namedGrading (module : Module) : Grading Context Unit :=
  .ofPreorder (fun before after => Named before → Remains module before after)
    (fun _ named => ⟨named, rfl, fun _ _ => rfl⟩) fun left right named => by
      have first := left named
      have second := right first.named
      exact ⟨second.named, second.opts.trans first.opts,
        fun index own => (second.funcs index own).trans (first.funcs index own)⟩

/-- A computation after which names differ as before. -/
abbrev KeepsNamed (module : Module) {α : Type} (before : Context) (emit : Translate α) : Prop :=
  Effect (namedGrading module) before emit ()

section Phases

variable {module : Module} {before : Context}

theorem LeavesNames.named {α : Type} {emit : Translate α} (leaves : LeavesNames before emit) :
    KeepsNamed module before emit where
  run ran named := by
    obtain ⟨namedAfter, steady⟩ := leaves.run ran named
    exact ⟨namedAfter, steady.opts, fun _ _ => by rw [steady.module]⟩

theorem renames_named {change : Llvm.Module Body → Llvm.Module Body}
    (renames : Renames before.llvmModule (change before.llvmModule)) :
    KeepsNamed module before (updateModule change) := by
  refine .modify fun named => ?_
  obtain ⟨distinct, kinds⟩ := renames named.distinct
  exact ⟨⟨distinct, fun id member => (kinds id).mpr (named.functions id member), named.nodup⟩, rfl, fun _ _ => rfl⟩

theorem declareFunc_named (index : Nat) (isExternal : Bool) :
    KeepsNamed module before (declareFunc index isExternal) where
  run ran named := by
    have declares := declareFunc_ok named ran
    exact ⟨declares.named, declares.opts, fun _ _ => by rw [declares.module]⟩

theorem nameImport_named {entity : Import} (member : entity ∈ module.imports) :
    KeepsNamed module before (nameImport entity) := by
  refine .modify fun named => ⟨⟨named.distinct, named.functions, named.nodup⟩, rfl, fun index own => ?_⟩
  cases kind : entity.kind with
  | func =>
      have apart : entity.index ≠ index := fun same => own (same ▸ List.mem_map_of_mem
        (List.mem_filter.mpr ⟨member, decide_eq_true kind⟩))
      exact List.getElem?_modify_ne _ _ apart
  | memory => rfl
  | global => rfl
  | table => rfl
  | tag => rfl

theorem fixNames_named (function : Nat) : KeepsNamed module before (fixNames function) := by
  have dollar : ∀ {before : Context}, KeepsNamed module before (removeDollarName function) := by
    intro before
    unfold removeDollarName
    refine .get ?_
    split
    · exact .throw _
    · exact renames_named .setName
    · exact .pure _
  have rest : ∀ {before : Context}, KeepsNamed module before (do
      updateModule (renameMain function)
      updateModule (renameFunction function "memset".toList "memset_1".toList)
      updateModule (renameFunction function "memcpy".toList "memcpy_1".toList)) :=
    Effect.skip (renames_named (.renameMain function)) fun _ =>
      Effect.skip (renames_named (.renameFunction _ _ _)) fun _ => renames_named (.renameFunction _ _ _)
  unfold fixNames
  refine .get (.ite (fun _ => ?_) fun _ => .ite (fun _ => ?_) fun _ => .pure _)
  · exact .ite (fun _ => dollar.skip fun _ => rest) fun _ => rest
  · exact renames_named .setLinkage

theorem declareFuncs_named (indices : List Nat) : KeepsNamed module before (declareFuncs indices) := by
  induction indices generalizing before with
  | nil => exact .pure _
  | cons index rest ih =>
      unfold declareFuncs
      exact (declareFunc_named index false).skip fun _ => (fixNames_named _).skip fun _ => ih.skip fun _ => .pure _

theorem visitImport_named {entity : Import} (member : entity ∈ module.imports) :
    KeepsNamed module before (visitImport entity) := by
  unfold visitImport
  refine (nameImport_named member).skip fun _ => ?_
  cases entity.kind with
  | func => exact (declareFunc_named _ _).skip fun _ => .pure _
  | memory => exact (declareMemory_leaves _ _).named
  | global => exact (visitGlobal_leaves _ _).named
  | table => exact (visitTable_leaves _ _).named
  | tag => exact .pure _

theorem visitGlobals_leaves (visited indices : List Nat) : LeavesNames before (visitGlobals visited indices) := by
  induction indices generalizing before with
  | nil => exact .pure _
  | cons index rest ih =>
      unfold visitGlobals
      by_cases member : index ∈ visited
      · rw [if_neg (not_not.mpr member)]
        exact ih
      · rw [if_pos member]
        exact (visitGlobal_leaves index false).skip fun _ => ih

theorem declareEntities_named (module : Module) : KeepsNamed module before (declareEntities module) := by
  unfold declareEntities
  refine .get (.ite (fun _ => .throw _) fun _ => ?_)
  refine Effect.skip (Effect.forM_one fun _ member _ => visitImport_named member) fun _ => ?_
  refine (visitGlobals_leaves _ _).named.skip fun _ => ?_
  exact Effect.forM_one fun index _ _ => (declareMemory_leaves index false).named

theorem visitDataSegments_leave (segments : List DataSegment) : LeavesNames before (segments.forM visitDataSegment) :=
  Effect.forM_one fun segment _ _ => visitDataSegment_leaves segment

theorem visitTables_leave (indices : List Nat) :
    LeavesNames before (indices.forM fun index => visitTable index false) :=
  Effect.forM_one fun index _ _ => visitTable_leaves index false

theorem visitFuncs_named (indices functions : List Nat) : KeepsNamed module before (visitFuncs indices functions) where
  run ran named := by
    obtain ⟨namedAfter, dots⟩ := (visitFuncs_dots indices functions).run ran named
    exact ⟨namedAfter, dots.opts, fun _ _ => by rw [dots.module]⟩

theorem declareFunctions_named (module : Module) : KeepsNamed module before (declareFunctions module) := by
  unfold declareFunctions
  refine (declareFuncs_named _).skip fun _ => ?_
  exact (visitTables_leave _).named.skip fun _ => visitFuncs_named _ _

theorem fillTables_leaves (module : Module) : LeavesNames before (fillTables module) :=
  fillTables_effect module fun elem _ _ => visitElem_leaves elem

theorem beforeExports_named (module : Module) : KeepsNamed module before (beforeExports module) := by
  unfold beforeExports
  refine (declareEntities_named module).skip fun _ => ?_
  exact (visitDataSegments_leave _).named.skip fun _ => declareFunctions_named module

end Phases

theorem start_named (opts : Options) (arrays : DataArrays) (module : Module) :
    Named (Context.start opts arrays module) where
  distinct _ _ _ named := absurd rfl named
  functions := nofun
  nodup := List.nodup_nil

end WasmToLlvm.Modules
