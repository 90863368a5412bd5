import WasmToLlvm.Library.TwoRuns
import WasmToLlvm.Modules.Compiled

/-!
# Names and code

Names, exports and the options about names have no influence on code and data: modules that
differ in nothing else are translated to the same objects in the same places, unless a name is
that of an intrinsic.
-/

set_option autoImplicit false

namespace WasmToLlvm.Modules

open Llvm Wasm Block Instruction Library

/-- The options that are not about names. -/
structure SameOptions (opts opts' : Options) : Prop where
  genIntToPtr : opts'.genIntToPtr = opts.genIntToPtr
  splitMem : opts'.splitMem = opts.splitMem
  noMemInitializer : opts'.noMemInitializer = opts.noMemInitializer
  constantDataUses : opts'.constantDataUses = opts.constantDataUses

theorem SameOptions.hasUseList {opts opts' : Options} (same : SameOptions opts opts') :
    opts'.hasUseList = opts.hasUseList := by
  funext constant
  cases constant with
  | pointers elements => rfl
  | value value | zero type | data object => exact same.constantDataUses

/-- Two contexts in which all is the same but names and linkages. -/
structure SameCode (first second : Context) : Prop where
  opts : SameOptions first.opts second.opts
  alike : Alike first.module second.module
  objects : second.llvmModule.objects = first.llvmModule.objects
  arrays : second.arrays = first.arrays
  globs : second.globs = first.globs
  funcs : second.funcs = first.funcs
  mems : second.mems = first.mems
  tables : second.tables = first.tables

/-- Two runs that do the same to code and data. -/
abbrev Together {α : Type} (before before' : Context) (emit emit' : Translate α) : Prop :=
  Parallel SameCode (· = ·) before before' emit emit'

/-! ## Steps -/

section Steps

variable {before before' after after' : Context}

theorem together_unit {emit emit' : Translate Unit}
    (parallel : Parallel SameCode (fun _ _ => True) before before' emit emit') : Together before before' emit emit' :=
  ⟨fun ran ran' => ⟨rfl, (parallel.run ran ran').2⟩⟩

theorem SameCode.relabels (same : SameCode before before') (left : Relabels before after)
    (right : Relabels before' after') : SameCode after after' := by
  have objects : after'.llvmModule.objects = after.llvmModule.objects := by
    rw [right.objects, left.objects, same.objects]
  rw [left.context, right.context]
  exact ⟨same.opts, same.alike, objects, same.arrays, same.globs, same.funcs, same.mems, same.tables⟩

/-- Names are given in each run for itself. -/
theorem KeepsObjects.together {emit emit' : Translate Unit} (left : KeepsObjects before emit)
    (right : KeepsObjects before' emit') (same : SameCode before before') : Together before before' emit emit' :=
  ⟨fun ran ran' => ⟨rfl, same.relabels (left.run ran) (right.run ran')⟩⟩

theorem SameCode.length (same : SameCode before before') :
    before'.llvmModule.values.length = before.llvmModule.values.length := by
  rw [← Llvm.Module.objects_length, same.objects, Llvm.Module.objects_length]

/-- The same object is created for the same entity. -/
theorem SameCode.creates {entity : Entity} {object : GlobalObject Body} (same : SameCode before before')
    (left : Creates before entity object after) (right : Creates before' entity object after') :
    SameCode after after' := by
  have objects : after'.llvmModule.objects = after.llvmModule.objects := by
    rw [right.objects, left.objects, same.objects]
  have pushed : ∀ {ids ids' : List Nat}, ids' = ids →
      ids' ++ [before'.llvmModule.values.length] = ids ++ [before.llvmModule.values.length] := by
    intro ids ids' sameIds
    rw [sameIds, same.length]
  rw [left.context, right.context]
  cases entity with
  | func index =>
      exact ⟨same.opts, same.alike, objects, same.arrays, same.globs, pushed same.funcs, same.mems,
        same.tables⟩
  | global index =>
      exact ⟨same.opts, same.alike, objects, same.arrays, pushed same.globs, same.funcs, same.mems,
        same.tables⟩
  | memory index =>
      exact ⟨same.opts, same.alike, objects, same.arrays, same.globs, same.funcs, pushed same.mems,
        same.tables⟩
  | table index =>
      exact ⟨same.opts, same.alike, objects, same.arrays, same.globs, same.funcs, same.mems,
        pushed same.tables⟩
  | dataSegment | intrinsic =>
      exact ⟨same.opts, same.alike, objects, same.arrays, same.globs, same.funcs, same.mems, same.tables⟩

/-- What stands in one place of two lists with the same images. -/
theorem place_same {α β : Type} {f : α → β} {list list' : List α} {index : Nat} {element element' : α}
    (same : list'.map f = list.map f) (found : list[index]? = some element) (found' : list'[index]? = some element') :
    f element' = f element := by
  have places := congrArg (·[index]?) same
  simp only [List.getElem?_map, found, found'] at places
  exact Option.some.inj places

theorem nameImport_together {entity entity' : Import} (same : SameCode before before') :
    Together before before' (nameImport entity) (nameImport entity') where
  run ran ran' := by
    have alike := (Alike.refl before.module).nameImport entity ran
    have alike' := (Alike.refl before'.module).nameImport entity' ran'
    cases ran
    cases ran'
    exact ⟨rfl, ⟨same.opts, (alike.symm.trans same.alike).trans alike', same.objects, same.arrays, same.globs, same.funcs,
      same.mems, same.tables⟩⟩

theorem declareFunc_together (index : Nat) (isExternal : Bool) (same : SameCode before before') :
    Together before before' (declareFunc index isExternal) (declareFunc index isExternal) where
  run ran ran' := by
    obtain ⟨func, params, result, found, type, isId, creates⟩ := declareFunc_creates ran
    obtain ⟨func', params', result', found', type', isId', creates'⟩ := declareFunc_creates ran'
    rw [place_same same.alike.funcs found found'] at type'
    cases type.symm.trans type'
    exact ⟨by rw [isId, isId', same.length], same.creates creates creates'⟩

theorem visitGlobal_together (index : Nat) (isExternal : Bool) (same : SameCode before before') :
    Together before before' (visitGlobal index isExternal) (visitGlobal index isExternal) where
  run ran ran' := by
    obtain ⟨global, type, initializer, found, isType, initial, creates⟩ := visitGlobal_creates ran
    obtain ⟨global', type', initializer', found', isType', initial', creates'⟩ := visitGlobal_creates ran'
    have contents := place_same same.alike.globals found found'
    simp only [Global.contents, Prod.mk.injEq] at contents
    obtain ⟨sameType, sameMutable, sameExpr⟩ := contents
    rw [sameType] at isType'
    cases isType.symm.trans isType'
    have sameInit : initializer' = initializer := by
      cases isExternal with
      | true => exact Eq.trans initial' (Eq.symm initial)
      | false =>
          obtain ⟨constant, initial, isConstant⟩ := initial
          obtain ⟨constant', initial', isConstant'⟩ := initial'
          rw [sameExpr, initial] at initial'
          rw [isConstant, isConstant', Option.some.inj initial']
    rw [sameInit, sameMutable] at creates'
    exact ⟨rfl, same.creates creates creates'⟩

theorem visitTable_together (index : Nat) (isExternal : Bool) (same : SameCode before before') :
    Together before before' (visitTable index isExternal) (visitTable index isExternal) where
  run ran ran' := by
    obtain ⟨table, found, creates⟩ := visitTable_creates ran
    obtain ⟨table', found', creates'⟩ := visitTable_creates ran'
    rw [place_same same.alike.tables found found'] at creates'
    exact ⟨rfl, same.creates creates creates'⟩

theorem declareMemory_together (index : Nat) (isExternal : Bool) (same : SameCode before before') :
    Together before before' (declareMemory index isExternal) (declareMemory index isExternal) where
  run ran ran' := by
    obtain ⟨memory, found, creates⟩ := declareMemory_creates ran
    obtain ⟨memory', found', creates'⟩ := declareMemory_creates ran'
    have pages : memory'.pages = memory.pages := by
      rw [Memory.pages, Memory.pages, place_same same.alike.memories found found']
    rw [pages] at creates'
    exact ⟨rfl, same.creates creates creates'⟩

end Steps

/-! ## Segments -/

section Segments

variable {before before' : Context}

theorem at_together {α : Type} (values : List α) (index : Nat) (same : SameCode before before') :
    Together before before' (at_ values index) (at_ values index) := by
  unfold at_
  split
  · exact .pure rfl same
  · exact .throw _

/-- The value in one place in both runs. -/
theorem values_together {values values' : List (GlobalValue Body)} (id : Nat)
    (objects : values'.map GlobalValue.object = values.map GlobalValue.object) (same : SameCode before before') :
    Parallel SameCode (fun gv gv' => gv'.object = gv.object) before before' (at_ values id) (at_ values' id) where
  run ran ran' := by
    obtain ⟨found, here⟩ := at_ok ran
    obtain ⟨found', here'⟩ := at_ok ran'
    rw [here, here']
    exact ⟨place_same objects found found', same⟩

theorem visitInitExpr_together (expr : InitExpr) (same : SameCode before before') :
    Together before before' (visitInitExpr expr) (visitInitExpr expr) := by
  unfold visitInitExpr
  split
  · exact .pure rfl same
  · exact .throw _
  · exact .pure rfl same
  · exact .throw _

theorem unwrapIntConstant_together (value : Option Value) (same : SameCode before before') :
    Together before before' (unwrapIntConstant value) (unwrapIntConstant value) := by
  unfold unwrapIntConstant
  split
  · exact .pure rfl same
  · exact .throw _

theorem copyData_together (buffer data : List Byte) (offset : BitVec 64) (same : SameCode before before') :
    Together before before' (copyData buffer offset data) (copyData buffer offset data) := by
  unfold copyData
  exact .ite Iff.rfl (fun _ => .throw _) fun _ => .ite Iff.rfl (fun _ => .pure rfl same) fun _ => .throw _

theorem getRawData_together (bytes : List Byte) (same : SameCode before before') :
    Together before before' (getRawData bytes) (getRawData bytes) where
  run ran ran' := by
    cases ran
    cases ran'
    rw [same.arrays]
    exact ⟨rfl, ⟨same.opts, same.alike, same.objects, rfl, same.globs, same.funcs, same.mems, same.tables⟩⟩

theorem setInitializer_together (id : Nat) (constant : Constant) (same : SameCode before before') :
    Together before before' (updateModule fun llvmModule => llvmModule.update id fun value => value.setInitializer constant)
      (updateModule fun llvmModule => llvmModule.update id fun value => value.setInitializer constant) := by
  refine together_unit (.modify ⟨same.opts, same.alike, ?_, same.arrays, same.globs, same.funcs, same.mems, same.tables⟩)
  simp only [Llvm.Module.objects_setInitializer, same.objects]

/-- The variable for a data segment, under two names. -/
theorem createSegment_together {name name' : Name} {linkage : Linkage} (object : GlobalObject Body)
    (same : SameCode before before') : Together before before'
      (createGlobalValue .dataSegment name linkage object) (createGlobalValue .dataSegment name' linkage object) where
  run ran ran' := by
    cases ran
    cases ran'
    have left : Creates before .dataSegment object { before with
        llvmModule := (before.llvmModule.create name linkage object).2
        entities := before.entities ++ [.dataSegment] } := ⟨rfl, Llvm.Module.objects_create ..⟩
    have right : Creates before' .dataSegment object { before' with
        llvmModule := (before'.llvmModule.create name' linkage object).2
        entities := before'.entities ++ [.dataSegment] } := ⟨rfl, Llvm.Module.objects_create ..⟩
    exact ⟨same.length.symm, same.creates left right⟩

theorem createSplitSegment_together {memory memory' : GlobalValue Body} (segment : DataSegment) (offset : Option Value)
    (same : SameCode before before') :
    Together before before' (createSplitSegment memory segment offset) (createSplitSegment memory' segment offset) := by
  unfold createSplitSegment
  split
  · refine (getRawData_together _ same).bind fun sameInit sameMiddle => ?_
    subst sameInit
    exact (createSegment_together _ sameMiddle).bind fun _ sameLast => .pure rfl sameLast
  · exact .throw _

theorem createMemInitializer_together (size : Nat) (offset : BitVec 64) (data : List Byte) (same : SameCode before before') :
    Together before before' (createMemInitializer size offset data) (createMemInitializer size offset data) := by
  unfold createMemInitializer
  refine (copyData_together _ _ _ same).bind fun sameBuffer sameMiddle => ?_
  subst sameBuffer
  exact getRawData_together _ sameMiddle

theorem modMemInitializer_together (object : Nat) (offset : BitVec 64) (data : List Byte) (same : SameCode before before') :
    Together before before' (modMemInitializer object offset data) (modMemInitializer object offset data) := by
  unfold modMemInitializer
  refine .get ?_
  rw [same.arrays]
  refine (at_together _ _ same).bind fun sameBytes sameMiddle => ?_
  subst sameBytes
  refine (copyData_together _ _ _ sameMiddle).bind fun sameBuffer sameLast => ?_
  subst sameBuffer
  refine together_unit (.modify ⟨sameLast.opts, sameLast.alike, sameLast.objects, ?_, sameLast.globs, sameLast.funcs,
    sameLast.mems, sameLast.tables⟩)
  simp only [sameLast.arrays]

theorem visitDataSegment_together (segment : DataSegment) (same : SameCode before before') :
    Together before before' (visitDataSegment segment) (visitDataSegment segment) := by
  have objects := same.objects
  have opts := same.opts
  unfold visitDataSegment
  refine .get (.guard ?_)
  rw [same.mems]
  refine (at_together _ _ same).bind fun sameMem same => ?_
  subst sameMem
  refine (values_together _ objects same).bind fun {memory memory' _ _} sameObject same => ?_
  refine (visitInitExpr_together _ same).bind fun sameOffset same => ?_
  subst sameOffset
  have initializers : memory'.initializer = memory.initializer := by
    rw [memory'.initializer_eq, memory.initializer_eq, sameObject]
  have types : memory'.valueType = memory.valueType := by
    rw [memory'.valueType_eq, memory.valueType_eq, sameObject]
  rw [opts.splitMem, opts.noMemInitializer, initializers, types]
  refine .ite Iff.rfl (fun _ => createSplitSegment_together _ _ same) fun _ => .ite Iff.rfl (fun _ => .pure rfl same)
    fun _ => (unwrapIntConstant_together _ same).bind fun sameAddress same => ?_
  subst sameAddress
  have fresh : ∀ {size : Nat} {offset : BitVec 64} {mem : Nat} {before before' : Context}, SameCode before before' →
      Together before before'
        (do
          let init ← createMemInitializer size offset segment.data
          updateModule fun llvmModule => llvmModule.update mem fun value => value.setInitializer init)
        (do
          let init ← createMemInitializer size offset segment.data
          updateModule fun llvmModule => llvmModule.update mem fun value => value.setInitializer init) := by
    intro size offset mem before before' same
    refine (createMemInitializer_together _ _ _ same).bind fun sameInit same => ?_
    subst sameInit
    exact setInitializer_together _ _ same
  split
  · exact fresh same
  · exact fresh same
  · exact modMemInitializer_together _ _ _ same
  · exact .throw _

theorem elemSlot_together (elem : ElemSegment) (funcs : List Nat) (offset slot : Nat) (same : SameCode before before') :
    Together before before' (elemSlot elem funcs offset slot) (elemSlot elem funcs offset slot) := by
  unfold elemSlot
  refine .ite Iff.rfl (fun _ => .ite Iff.rfl (fun _ => ?_) fun _ => .throw _) fun _ => .pure rfl same
  split
  · refine (at_together _ _ same).bind fun sameFunction same => ?_
    exact .pure (congrArg some sameFunction) same
  · exact .throw _

theorem elemSlots_together (elem : ElemSegment) (funcs : List Nat) (offset : Nat) (places : List Nat)
    (same : SameCode before before') :
    Together before before' (elemSlots elem funcs offset places) (elemSlots elem funcs offset places) := by
  induction places generalizing before before' with
  | nil => exact .pure rfl same
  | cons slot places ih =>
      unfold elemSlots
      refine (elemSlot_together _ _ _ _ same).bind fun sameSlot same => ?_
      refine (ih same).bind fun sameRest same => ?_
      exact .pure (congr (congrArg _ sameSlot) sameRest) same

theorem replaceInitializer_together (id : Nat) (init : Constant) (same : SameCode before before') :
    Together before before' (replaceInitializer id init) (replaceInitializer id init) := by
  have objects := same.objects
  have opts := same.opts.hasUseList
  unfold replaceInitializer
  refine .get ((values_together _ objects same).bind fun {gv gv' _ _} sameObject same => ?_)
  have initializers : gv'.initializer = gv.initializer := by
    rw [gv'.initializer_eq, gv.initializer_eq, sameObject]
  rw [initializers, opts]
  split
  · refine .ite Iff.rfl (fun _ => ?_) fun _ => .pure rfl same
    refine .guard (together_unit (.modify ⟨same.opts, same.alike, ?_, same.arrays, same.globs, same.funcs, same.mems,
      same.tables⟩))
    simp only [Llvm.Module.objects_replaceAllUsesWith, same.objects]
  · exact setInitializer_together _ _ same

theorem visitElem_together (elem : ElemSegment) (same : SameCode before before') :
    Together before before' (visitElem elem) (visitElem elem) := by
  have objects := same.objects
  have funcs := same.funcs
  unfold visitElem
  refine .guard (.guard (.get ?_))
  rw [same.tables]
  refine (at_together _ _ same).bind fun sameId same => ?_
  subst sameId
  refine (values_together _ objects same).bind fun {gv gv' _ _} sameObject same => ?_
  refine (visitInitExpr_together _ same).bind fun sameInit same => ?_
  subst sameInit
  refine (unwrapIntConstant_together _ same).bind fun sameOffset same => ?_
  subst sameOffset
  rw [funcs, gv'.valueType_eq, gv.valueType_eq, sameObject]
  refine (elemSlots_together _ _ _ _ same).bind fun sameSlots same => ?_
  subst sameSlots
  exact replaceInitializer_together _ _ same

end Segments

/-! ## Functions -/

section Functions

variable {before before' after after' : Context}

/-- The index spaces are the same in both runs. -/
theorem SameCode.environment (same : SameCode before before') : before'.environment = before.environment := by
  have funcs : before'.module.funcs.map (fun func => func.func.decl) =
      before.module.funcs.map fun func => func.func.decl := by
    have images := congrArg (List.map fun func : Func Instr => func.decl) same.alike.funcs
    rwa [List.map_map, List.map_map] at images
  have globs : before'.module.globals.map Global.type = before.module.globals.map Global.type := by
    have images := congrArg (List.map fun contents : ValType × Bool × InitExpr => contents.1) same.alike.globals
    rwa [List.map_map, List.map_map] at images
  have sizes : ∀ id : Nat, (before'.llvmModule.values[id]?).map GlobalValue.valueType =
      (before.llvmModule.values[id]?).map GlobalValue.valueType := by
    intro id
    have object := congrArg (·[id]?) same.objects
    simp only [Llvm.Module.objects_getElem?] at object
    have types := congrArg (Option.map GlobalObject.valueType) object
    rwa [Option.map_map, Option.map_map] at types
  unfold Context.environment
  rw [funcs, globs, same.mems, same.tables, same.opts.genIntToPtr]
  simp only [sizes]

/-- Two contexts in which intrinsics have the same declarations, each of its own type. -/
structure SameCalls (first second : Context) : Prop where
  code : SameCode first second
  lookups : ∀ declaration, OfIntrinsic declaration →
    second.llvmModule.getNamedValue declaration.name = first.llvmModule.getNamedValue declaration.name
  declared : ∀ declaration id, OfIntrinsic declaration → first.llvmModule.getNamedValue declaration.name = some id →
    ∃ body, first.llvmModule.objects[id]? = some (.function declaration.params declaration.result body)

theorem getNamedValue_create {llvmModule : Llvm.Module Body} {linkage : Linkage} {object : GlobalObject Body}
    {name other : Name} (free : llvmModule.getNamedValue name = none) (named : name ≠ []) (namedOther : other ≠ []) :
    (llvmModule.create name linkage object).2.getNamedValue other =
      if other = name then some llvmModule.values.length else llvmModule.getNamedValue other := by
  rw [Llvm.Module.getNamedValue, if_neg named] at free
  have fresh : name ∉ llvmModule.names := by
    intro member
    obtain ⟨value, inValues, isName⟩ := List.mem_map.mp (List.mem_filter.mp member).1
    have taken := List.findIdx?_eq_none_iff.mp free value inValues
    rw [isName] at taken
    simp at taken
  rw [Llvm.Module.create, uniqueName, if_neg fresh]
  unfold Llvm.Module.getNamedValue
  rw [if_neg namedOther, if_neg namedOther, List.findIdx?_append, List.findIdx?_singleton]
  by_cases same : other = name
  · rw [if_pos same, same, free, if_pos (decide_eq_true rfl)]
    exact congrArg some (Nat.zero_add _)
  · rw [if_neg same, if_neg (by simpa using Ne.symm same)]
    exact Option.or_none

theorem getNamedValue_setBody (llvmModule : Llvm.Module Body) (function : Nat) (code : Body) (name : Name) :
    (llvmModule.update function fun value => value.setBody code).getNamedValue name = llvmModule.getNamedValue name := by
  have names : (llvmModule.values.modify function fun value => value.setBody code).map GlobalValue.name =
      llvmModule.values.map GlobalValue.name := by
    refine List.ext_getElem? fun id => ?_
    rw [List.getElem?_map, List.getElem?_map, List.getElem?_modify, Option.map_eq_map, Option.map_map]
    refine congrArg (Option.map · _) (funext fun value => ?_)
    rw [Function.comp_apply]
    split
    · obtain ⟨valueName, linkage, object⟩ := value
      cases object <;> rfl
    · rfl
  have byName : ∀ values : List (GlobalValue Body), values.findIdx? (fun value => value.name = name) =
      (values.map GlobalValue.name).findIdx? (· = name) := by
    intro values
    rw [List.findIdx?_map]
    rfl
  unfold Llvm.Module.getNamedValue Llvm.Module.update
  rw [byName, byName, names]

theorem getOrInsertDeclaration_new {declaration : Declaration}
    (free : before.llvmModule.getNamedValue declaration.name = none) :
    getOrInsertDeclaration declaration before = insertDeclaration declaration before := by
  unfold getOrInsertDeclaration
  rw [get_bind_run, free]

theorem getOrInsertDeclaration_taken {declaration : Declaration} {id : Nat} {body : Option Body}
    (taken : before.llvmModule.getNamedValue declaration.name = some id)
    (declared : before.llvmModule.objects[id]? = some (.function declaration.params declaration.result body)) :
    getOrInsertDeclaration declaration before = .ok ((), before) := by
  rw [Llvm.Module.objects_getElem?] at declared
  obtain ⟨value, found, object⟩ := Option.map_eq_some_iff.mp declared
  unfold getOrInsertDeclaration at_
  rw [get_bind_run, taken]
  simp only [found, pure_bind_run, object]
  rw [if_neg (not_not.mpr ⟨trivial, trivial⟩)]
  rfl

theorem insertDeclaration_creates {declaration : Declaration}
    (ran : insertDeclaration declaration before = .ok ((), after)) :
    Creates before .intrinsic (.function declaration.params declaration.result none) after := by
  cases ran
  exact ⟨rfl, Llvm.Module.objects_create ..⟩

theorem insertDeclaration_lookup {declaration other : Declaration} (isIntrinsic : OfIntrinsic declaration)
    (isIntrinsicOther : OfIntrinsic other) (free : before.llvmModule.getNamedValue declaration.name = none)
    (ran : insertDeclaration declaration before = .ok ((), after)) :
    after.llvmModule.getNamedValue other.name = if other.name = declaration.name then
      some before.llvmModule.values.length else before.llvmModule.getNamedValue other.name := by
  cases ran
  exact getNamedValue_create free (List.ne_nil_of_mem isIntrinsic.dot) (List.ne_nil_of_mem isIntrinsicOther.dot)

/-- A declaration that is new in both contexts. -/
theorem SameCalls.insert {declaration : Declaration} (same : SameCalls before before')
    (isIntrinsic : OfIntrinsic declaration)
    (free : before.llvmModule.getNamedValue declaration.name = none)
    (ran : insertDeclaration declaration before = .ok ((), after))
    (ran' : insertDeclaration declaration before' = .ok ((), after')) : SameCalls after after' := by
  have free' := (same.lookups declaration isIntrinsic).trans free
  have creates := insertDeclaration_creates ran
  refine ⟨same.code.creates creates (insertDeclaration_creates ran'), fun other isIntrinsicOther => ?_,
    fun other id isIntrinsicOther found => ?_⟩
  · rw [insertDeclaration_lookup isIntrinsic isIntrinsicOther free ran,
      insertDeclaration_lookup isIntrinsic isIntrinsicOther free' ran', same.code.length, same.lookups other isIntrinsicOther]
  · rw [insertDeclaration_lookup isIntrinsic isIntrinsicOther free ran] at found
    rw [creates.objects]
    by_cases again : other.name = declaration.name
    · rw [if_pos again] at found
      cases found
      cases isIntrinsicOther.unique isIntrinsic again
      refine ⟨none, ?_⟩
      rw [← Llvm.Module.objects_length, List.getElem?_concat_length]
    · rw [if_neg again] at found
      obtain ⟨body, isObject⟩ := same.declared other id isIntrinsicOther found
      exact ⟨body, (List.getElem?_append_left (List.getElem?_eq_some_iff.mp isObject).1).trans isObject⟩

/-- An intrinsic is found in both contexts or in none. -/
theorem getOrInsertDeclaration_together {declaration : Declaration} (isIntrinsic : OfIntrinsic declaration)
    (same : SameCalls before before') : Parallel SameCalls (· = ·) before before' (getOrInsertDeclaration declaration)
      (getOrInsertDeclaration declaration) where
  run ran ran' := by
    cases lookup : before.llvmModule.getNamedValue declaration.name with
    | none =>
        rw [getOrInsertDeclaration_new lookup] at ran
        rw [getOrInsertDeclaration_new ((same.lookups declaration isIntrinsic).trans lookup)] at ran'
        exact ⟨rfl, same.insert isIntrinsic lookup ran ran'⟩
    | some id =>
        obtain ⟨body, declared⟩ := same.declared declaration id isIntrinsic lookup
        rw [getOrInsertDeclaration_taken lookup declared] at ran
        rw [getOrInsertDeclaration_taken ((same.lookups declaration isIntrinsic).trans lookup)
          (same.code.objects ▸ declared)] at ran'
        cases ran
        cases ran'
        exact ⟨rfl, same⟩

/-- Both functions get the same body. -/
theorem SameCalls.setBody (same : SameCalls before before') (function : Nat) (code : Body) :
    Parallel SameCalls (· = ·) before before'
      (updateModule fun llvmModule => llvmModule.update function fun value => value.setBody code)
      (updateModule fun llvmModule => llvmModule.update function fun value => value.setBody code) where
  run ran ran' := by
    cases ran
    cases ran'
    have code_ := same.code
    refine ⟨rfl, ⟨code_.opts, code_.alike, ?_, code_.arrays, code_.globs, code_.funcs, code_.mems, code_.tables⟩,
      fun declaration isIntrinsic => ?_, fun declaration id isIntrinsic found => ?_⟩
    · simp only [Llvm.Module.objects_setBody, code_.objects]
    · rw [getNamedValue_setBody, getNamedValue_setBody]
      exact same.lookups declaration isIntrinsic
    · rw [getNamedValue_setBody] at found
      obtain ⟨body, declared⟩ := same.declared declaration id isIntrinsic found
      rw [Llvm.Module.objects_setBody, List.getElem?_modify, declared]
      by_cases own : function = id
      · exact ⟨some code, by rw [Option.map_eq_map, Option.map_some, if_pos own]; rfl⟩
      · exact ⟨body, by rw [Option.map_eq_map, Option.map_some, if_neg own]⟩

theorem visitFunc_together (index function : Nat) (same : SameCalls before before') :
    Parallel SameCalls (· = ·) before before' (visitFunc index function) (visitFunc index function) := by
  unfold visitFunc
  refine .get ⟨fun ran ran' => ?_⟩
  obtain ⟨func, middle, ranAt, ran⟩ := bind_ok.mp ran
  obtain ⟨func', middle', ranAt', ran'⟩ := bind_ok.mp ran'
  obtain ⟨found, here⟩ := at_ok ranAt
  obtain ⟨found', here'⟩ := at_ok ranAt'
  cases here
  cases here'
  rw [same.code.environment, place_same same.code.alike.funcs found found'] at ran'
  cases compiled : Block.visitFunc (instructions before.environment) func.func with
  | error reason => rw [compiled] at ran; cases ran
  | ok translated =>
      rw [compiled] at ran ran'
      have isIntrinsic : List.Forall₂
          (fun declaration declaration' => declaration = declaration' ∧ OfIntrinsic declaration)
          translated.function.declarations translated.function.declarations :=
        List.forall₂_same.mpr fun declaration member => ⟨rfl, Function.ofIntrinsic member⟩
      have declared : Parallel SameCalls (fun _ _ => True) before before'
          (translated.function.declarations.forM getOrInsertDeclaration)
          (translated.function.declarations.forM getOrInsertDeclaration) := by
        refine .forM isIntrinsic same fun {declaration _ _ _} here same => ?_
        obtain ⟨rfl, isDeclared⟩ := here
        exact ⟨fun ran ran' => ⟨trivial, ((getOrInsertDeclaration_together isDeclared same).run ran ran').2⟩⟩
      exact (declared.bind fun _ same => same.setBody function translated.function).run ran ran'

theorem visitFuncs_together (indices functions : List Nat) (same : SameCalls before before') :
    Parallel SameCalls (· = ·) before before' (visitFuncs indices functions) (visitFuncs indices functions) := by
  induction indices generalizing before before' functions with
  | nil => exact .pure rfl same
  | cons index indices ih =>
      cases functions with
      | nil => exact .throw _
      | cons function functions => exact (visitFunc_together index function same).bind fun _ same => ih functions same

theorem declareFuncs_together (indices : List Nat) (same : SameCode before before') :
    Together before before' (declareFuncs indices) (declareFuncs indices) := by
  induction indices generalizing before before' with
  | nil => exact .pure rfl same
  | cons index rest ih =>
      unfold declareFuncs
      refine (declareFunc_together index false same).bind fun sameFunction same => ?_
      subst sameFunction
      refine ((fixNames_relabels _).together (fixNames_relabels _) same).bind fun _ same => ?_
      refine (ih same).bind fun sameRest same => ?_
      exact .pure (congrArg _ sameRest) same

end Functions

/-! ## Phases -/

/-- What an import is, apart from its names. -/
def Import.place (entity : Import) : ExternalKind × Nat := (entity.kind, entity.index)

/-- Modules that differ in names and exports only. Data segments keep their names, for these
say which data is constant. -/
structure Nameless (module module' : Module) : Prop where
  alike : Alike module module'
  imports : module'.imports.map Import.place = module.imports.map Import.place
  fields : module'.fields = module.fields
  elemSegments : module'.elemSegments = module.elemSegments

section Phases

variable {module module' : Module} {before before' : Context}

theorem Nameless.imported (nameless : Nameless module module') (kind : ExternalKind) :
    module'.imported kind = module.imported kind := by
  have places : ∀ imports : List Import, (imports.filter (·.kind = kind)).map Import.index =
      ((imports.map Import.place).filter (·.1 = kind)).map Prod.snd := by
    intro imports
    rw [List.filter_map, List.map_map]
    rfl
  rw [Module.imported, Module.imported, places, places, nameless.imports]

theorem visitImport_together {entity entity' : Import} (places : entity'.place = entity.place)
    (same : SameCode before before') : Together before before' (visitImport entity) (visitImport entity') := by
  obtain ⟨moduleName, fieldName, kind, index⟩ := entity
  obtain ⟨moduleName', fieldName', kind', index'⟩ := entity'
  cases places
  unfold visitImport
  refine (nameImport_together same).bind fun _ same => ?_
  cases kind with
  | func => exact (declareFunc_together index true same).bind fun _ same => .pure rfl same
  | memory => exact declareMemory_together index true same
  | global => exact visitGlobal_together index true same
  | table => exact visitTable_together index true same
  | tag => exact .pure rfl same

theorem visitGlobals_together (visited indices : List Nat) (same : SameCode before before') :
    Together before before' (visitGlobals visited indices) (visitGlobals visited indices) := by
  induction indices generalizing before before' with
  | nil => exact .pure rfl same
  | cons index rest ih =>
      unfold visitGlobals
      refine .ite Iff.rfl (fun _ => ?_) fun _ => ih same
      exact (visitGlobal_together index false same).bind fun _ same => ih same

/-- A loop over one list. -/
theorem forM_together {α : Type} {visit : α → Translate Unit} (list : List α) (same : SameCode before before')
    (visits : ∀ (element : α) {before before' : Context}, SameCode before before' →
      Together before before' (visit element) (visit element)) :
    Together before before' (list.forM visit) (list.forM visit) := by
  have lists : List.Forall₂ (fun element element' : α => element = element') list list := List.forall₂_refl list
  refine together_unit (.forM lists same fun {element _ _ _} here same => ?_)
  subst here
  exact ⟨fun ran ran' => ⟨trivial, ((visits element same).run ran ran').2⟩⟩

theorem declareEntities_together (nameless : Nameless module module') (same : SameCode before before') :
    Together before before' (declareEntities module) (declareEntities module') := by
  have globals : module'.globals.length = module.globals.length := by
    have lengths := congrArg List.length nameless.alike.globals
    rwa [List.length_map, List.length_map] at lengths
  have memories : module'.definedMemories = module.definedMemories := by
    rw [Module.definedMemories, nameless.fields, Module.definedMemories]
  have imports : ∀ {before before' : Context}, SameCode before before' →
      Parallel SameCode (fun _ _ => True) before before' (module.imports.forM visitImport)
        (module'.imports.forM visitImport) := by
    intro before before' same
    refine .forM (forall₂_of_map_eq nameless.imports.symm) same fun places same => ?_
    exact ⟨fun ran ran' => ⟨trivial, ((visitImport_together places.symm same).run ran ran').2⟩⟩
  unfold declareEntities
  rw [nameless.imported, globals, memories]
  refine .get (.guard ((imports same).bind fun _ same => ?_))
  refine (visitGlobals_together _ _ same).bind fun _ same => ?_
  exact forM_together _ same fun index _ _ same => declareMemory_together index false same

/-- All phases before the bodies. -/
def beforeBodies (module : Module) : Translate (List Nat) := do
  declareEntities module
  module.dataSegments.forM visitDataSegment
  let functions ← declareFuncs module.definedFuncs
  (List.range module.tables.length).forM fun index => visitTable index false
  return functions

theorem beforeBodies_together (nameless : Nameless module module') (same : SameCode before before') :
    Together before before' (beforeBodies module) (beforeBodies module') := by
  have segments : module'.dataSegments = module.dataSegments := by
    rw [Module.dataSegments, nameless.fields, Module.dataSegments]
  have tables : module'.tables.length = module.tables.length := by
    have lengths := congrArg List.length nameless.alike.tables
    rwa [List.length_map, List.length_map] at lengths
  have funcs : module'.definedFuncs = module.definedFuncs := by
    rw [Module.definedFuncs, nameless.fields, Module.definedFuncs]
  unfold beforeBodies
  rw [segments, funcs, tables]
  refine (declareEntities_together nameless same).bind fun _ same => ?_
  refine (forM_together _ same fun segment _ _ same => visitDataSegment_together segment same).bind fun _ same => ?_
  refine (declareFuncs_together _ same).bind fun sameFunctions same => ?_
  refine (forM_together _ same fun index _ _ same => visitTable_together index false same).bind fun _ same => ?_
  exact .pure sameFunctions same

theorem fillTables_together (nameless : Nameless module module') (same : SameCode before before') :
    Together before before' (fillTables module) (fillTables module') := by
  unfold fillTables
  rw [nameless.elemSegments]
  refine (forM_together _ same fun elem _ _ same => visitElem_together elem same).bind fun _ same => ?_
  exact .get (.guard (.pure rfl same))

end Phases

/-! ## The module -/

section Translation

variable {opts opts' : Options} {arrays : DataArrays} {module module' : Module} {before context context' : Context}

/-- The states around the bodies of a completed translation. -/
theorem translateModule_split_bodies (ran : translateModule opts arrays module = .ok context) :
    ∃ functions before after named, beforeBodies module (Context.start opts arrays module) = .ok (functions, before) ∧
      visitFuncs module.definedFuncs functions before = .ok ((), after) ∧
      nameFunctions module after = .ok ((), named) ∧ fillTables module named = .ok ((), context) := by
  obtain ⟨declared, filled, ranDeclare, ranFill, ranFinish⟩ := translateModule_iff.mp ran
  rw [finishModule_eq] at ranFinish
  obtain ⟨_, after, ranFunctions, ranFinish⟩ := bind_ok.mp ranFinish
  obtain ⟨_, named, ranNames, ranTables⟩ := bind_ok.mp ranFinish
  obtain ⟨functions, announced, ranFuncs, ranFunctions⟩ := bind_ok.mp ranFunctions
  obtain ⟨_, before, ranTabs, ranBodies⟩ := bind_ok.mp ranFunctions
  refine ⟨functions, before, after, named, ?_, ranBodies, ranNames, ranTables⟩
  exact bind_ok.mpr ⟨_, _, ranDeclare, bind_ok.mpr ⟨_, _, ranFill, bind_ok.mpr ⟨_, _, ranFuncs,
    bind_ok.mpr ⟨_, _, ranTabs, rfl⟩⟩⟩⟩

/-- No value has the name of an intrinsic when the bodies are translated. -/
def Unclaimed (opts : Options) (arrays : DataArrays) (module : Module) : Prop :=
  ∀ functions before, beforeBodies module (Context.start opts arrays module) = .ok (functions, before) →
    ∀ declaration, OfIntrinsic declaration → before.llvmModule.getNamedValue declaration.name = none

/-- Names, exports and the options about names do not change code and data, unless a name is
that of an intrinsic. -/
theorem translateModule_nameless (options : SameOptions opts opts') (nameless : Nameless module module')
    (unclaimed : Unclaimed opts arrays module) (unclaimed' : Unclaimed opts' arrays module')
    (ran : translateModule opts arrays module = .ok context)
    (ran' : translateModule opts' arrays module' = .ok context') : SameCode context context' := by
  have start : SameCode (Context.start opts arrays module) (Context.start opts' arrays module') :=
    ⟨options, nameless.alike, rfl, rfl, rfl, rfl, rfl, rfl⟩
  have funcs : module'.definedFuncs = module.definedFuncs := by
    rw [Module.definedFuncs, nameless.fields, Module.definedFuncs]
  obtain ⟨functions, before, after, named, ranStart, ranBodies, ranNames, ranTables⟩ := translateModule_split_bodies ran
  obtain ⟨functions', before', after', named', ranStart', ranBodies', ranNames', ranTables'⟩ :=
    translateModule_split_bodies ran'
  obtain ⟨sameFunctions, sameBefore⟩ := (beforeBodies_together nameless start).run ranStart ranStart'
  have free := unclaimed functions before ranStart
  have free' := unclaimed' functions' before' ranStart'
  have calls : SameCalls before before' :=
    ⟨sameBefore, fun declaration isIntrinsic => (free' declaration isIntrinsic).trans (free declaration isIntrinsic).symm,
      fun declaration id isIntrinsic found => nomatch (free declaration isIntrinsic).symm.trans found⟩
  rw [funcs, ← sameFunctions] at ranBodies'
  have sameAfter := ((visitFuncs_together _ _ calls).run ranBodies ranBodies').2
  have sameNamed := sameAfter.code.relabels ((nameFunctions_relabels module).run ranNames)
    ((nameFunctions_relabels module').run ranNames')
  exact ((fillTables_together nameless sameNamed).run ranTables ranTables').2

theorem prefix_of_intrinsic {declaration : Declaration} (isIntrinsic : OfIntrinsic declaration) :
    "llvm.".toList.isPrefixOf declaration.name = true := by
  have starts : ∀ (name : Name) (types : List Ty), "llvm.".toList.isPrefixOf (intrinsicName name types) = true := by
    intro name types
    rw [List.isPrefixOf_iff_prefix, intrinsicName, List.append_assoc]
    exact List.prefix_append ..
  cases isIntrinsic <;> exact starts ..

/-- It is enough that no name starts as those of intrinsics do. -/
theorem Unclaimed.of_names (clear : ((beforeBodies module (Context.start opts arrays module)).toOption.all
    fun result => result.2.llvmModule.values.all fun value => !"llvm.".toList.isPrefixOf value.name) = true) :
    Unclaimed opts arrays module := by
  intro functions before ran declaration isIntrinsic
  rw [ran] at clear
  rw [Llvm.Module.getNamedValue, if_neg (List.ne_nil_of_mem isIntrinsic.dot), List.findIdx?_eq_none_iff]
  intro value member
  have other := List.all_eq_true.mp clear value member
  refine decide_eq_false fun same => ?_
  rw [same, prefix_of_intrinsic isIntrinsic] at other
  cases other

end Translation

/-- A function that counts bits and a global, under these names. -/
def namedModule (function global : Name) (exports : List Export) : Module where
  name := []
  funcs := [⟨function, ⟨[.i32], [.i32]⟩, [], [.localGet 0, .instr (.unary .i32Popcnt)]⟩]
  globals := [⟨global, .i32, true, [.const (.i32 0)]⟩]
  tables := []
  memories := []
  imports := []
  fields := [.func 0, .global 0]
  exports := exports
  elemSegments := []

/-- The same function and global under other names. -/
def renamedModule : Module :=
  namedModule "$__original_main".toList "$main".toList [⟨"_start".toList, .func, 0⟩]

theorem translateModule_nameless_renamed : ∃ context context',
    translateModule ⟨false, false, false, false, false, false, false⟩ [] (namedModule "$f".toList "$g".toList []) =
        .ok context ∧
      translateModule ⟨false, true, false, true, false, false, false⟩ [] renamedModule = .ok context' ∧
        SameCode context context' := by
  have ok : (translateModule ⟨false, false, false, false, false, false, false⟩ []
      (namedModule "$f".toList "$g".toList [])).isOk = true := by decide +kernel
  have ok' : (translateModule ⟨false, true, false, true, false, false, false⟩ [] renamedModule).isOk = true := by
    decide +kernel
  obtain ⟨context, ran⟩ := translateModule_completes ok
  obtain ⟨context', ran'⟩ := translateModule_completes ok'
  have options : SameOptions ⟨false, false, false, false, false, false, false⟩
      ⟨false, true, false, true, false, false, false⟩ := ⟨rfl, rfl, rfl, rfl⟩
  have nameless : Nameless (namedModule "$f".toList "$g".toList []) renamedModule :=
    ⟨⟨rfl, rfl, rfl, rfl⟩, rfl, rfl, rfl⟩
  have unclaimed : Unclaimed ⟨false, false, false, false, false, false, false⟩ []
      (namedModule "$f".toList "$g".toList []) := .of_names (by decide +kernel)
  have unclaimed' : Unclaimed ⟨false, true, false, true, false, false, false⟩ [] renamedModule :=
    .of_names (by decide +kernel)
  exact ⟨context, context', ran, ran',
    translateModule_nameless options nameless unclaimed unclaimed' ran ran'⟩

/-- A function with the name and the type of the intrinsic is called in its place. -/
example : (translateModule ⟨false, false, false, false, false, false, false⟩ []
      (namedModule "$f".toList "$g".toList [])).toOption.map (·.entities) = some [.global 0, .func 0, .intrinsic] ∧
    (translateModule ⟨false, false, false, false, false, false, false⟩ []
      (namedModule "$llvm.ctpop.i32".toList "$g".toList [])).toOption.map (·.entities) = some [.global 0, .func 0] := by
  decide +kernel

end WasmToLlvm.Modules
