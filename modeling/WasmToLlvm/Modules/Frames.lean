import WasmToLlvm.Library.Lists
import WasmToLlvm.Modules.Elements

/-!
# What the translation leaves alone

Variables of bytes and the arrays of the context. Only data segments change these; the
other steps rename, create and fill other objects.
-/

set_option autoImplicit false

namespace WasmToLlvm.Modules

open Llvm Wasm Block Instruction Library

/-! ## Initializers and their types -/

/-- The constant may initialize a variable of the type. -/
def FitsType (constant : Constant) (type : Ty) : Prop :=
  match constant with
  | .value _ => ∀ count element, type ≠ .array count element
  | .zero other => other = type
  | .data _ => ∃ count, type = .array count (.int 8)
  | .pointers elements => type = .array elements.length .ptr

/-- A variable of bytes. -/
def IsBytes (gv : GlobalValue Body) : Prop := ∃ count, gv.valueType = .array count (.int 8)

/-- The initializer, if there is one, has the type of its variable. -/
def Initialized (gv : GlobalValue Body) : Prop :=
  ∀ constant, gv.initializer = some constant → FitsType constant gv.valueType

/-- What initializes an array of pointers fits no other type. -/
theorem FitsType.pointers_unique {constant : Constant} {count : Nat} {type : Ty}
    (pointers : FitsType constant (.array count .ptr)) (fits : FitsType constant type) : type = .array count .ptr := by
  cases constant with
  | value value => exact absurd rfl (pointers count .ptr)
  | zero other => exact fits.symm.trans pointers
  | data object =>
      obtain ⟨bytes, isBytes⟩ := pointers
      cases isBytes
  | pointers elements => exact fits.trans pointers.symm

theorem getPointers_fits (elements : List (Option Nat)) :
    FitsType (getPointers elements) (.array elements.length .ptr) := by
  unfold getPointers
  split
  · rfl
  · rfl

theorem getRaw_fits (arrays : DataArrays) (bytes : List Byte) :
    FitsType (getRaw arrays bytes).1 (.array bytes.length (.int 8)) := by
  unfold getRaw
  split
  · rfl
  · split
    · exact ⟨_, rfl⟩
    · exact ⟨_, rfl⟩

/-! ## Changes of an LLVM module -/

/-- The initializers have the types of their variables. -/
def TypedValues (llvmModule : Llvm.Module Body) : Prop :=
  ∀ (id : Nat) (gv : GlobalValue Body), llvmModule.values[id]? = some gv → Initialized gv

/-- Values keep their types, and variables of bytes all but their names and linkages. -/
def KeepsValues (before after : Llvm.Module Body) : Prop :=
  ∀ (id : Nat) (gv : GlobalValue Body), before.values[id]? = some gv → ∃ gv', after.values[id]? = some gv' ∧
    gv'.valueType = gv.valueType ∧ (IsBytes gv → gv'.object = gv.object)

/-- A change that leaves the variables of bytes alone. -/
def Tame (before after : Llvm.Module Body) : Prop :=
  TypedValues before → TypedValues after ∧ KeepsValues before after

section Changes

variable {before after third : Llvm.Module Body} {id : Nat} {change : GlobalValue Body → GlobalValue Body}

theorem KeepsValues.trans (left : KeepsValues before after) (right : KeepsValues after third) :
    KeepsValues before third := by
  intro id gv found
  obtain ⟨gv', found', type, object⟩ := left id gv found
  obtain ⟨gv'', found'', type', object'⟩ := right id gv' found'
  refine ⟨gv'', found'', type'.trans type, fun bytes => ?_⟩
  have bytes' : IsBytes gv' := bytes.imp fun _ isType => type.trans isType
  exact (object' bytes').trans (object bytes)

theorem Tame.refl : Tame before before :=
  fun typed => ⟨typed, fun _ gv found => ⟨gv, found, rfl, fun _ => rfl⟩⟩

theorem Tame.trans (left : Tame before after) (right : Tame after third) : Tame before third := by
  intro typed
  obtain ⟨typedMiddle, keepsLeft⟩ := left typed
  obtain ⟨typedAfter, keepsRight⟩ := right typedMiddle
  exact ⟨typedAfter, keepsLeft.trans keepsRight⟩

/-- A value of a changed module, where one value changes. -/
theorem update_cases {other : Nat} {gv' : GlobalValue Body} (found : (before.update id change).values[other]? = some gv') :
    ∃ gv, before.values[other]? = some gv ∧ gv' = if id = other then change gv else gv := by
  unfold Llvm.Module.update at found
  rw [List.getElem?_modify] at found
  obtain ⟨gv, foundBefore, same⟩ := Option.map_eq_some_iff.mp found
  exact ⟨gv, foundBefore, same.symm⟩

theorem update_found {other : Nat} {gv : GlobalValue Body} (found : before.values[other]? = some gv) :
    (before.update id change).values[other]? = some (if id = other then change gv else gv) := by
  rw [Llvm.Module.update, List.getElem?_modify, found]
  rfl

theorem TypedValues.update (typed : TypedValues before)
    (initialized : ∀ gv, before.values[id]? = some gv → Initialized gv → Initialized (change gv)) :
    TypedValues (before.update id change) := by
  intro other gv' found'
  obtain ⟨gv, found, same⟩ := update_cases found'
  by_cases here : id = other
  · rw [same, if_pos here]
    exact initialized gv (here ▸ found) (typed other gv found)
  · rw [same, if_neg here]
    exact typed other gv found

/-- A change of one value. -/
theorem Tame.update (initialized : ∀ gv, before.values[id]? = some gv → Initialized gv → Initialized (change gv))
    (kept : ∀ gv, before.values[id]? = some gv →
      (change gv).valueType = gv.valueType ∧ (IsBytes gv → (change gv).object = gv.object)) :
    Tame before (before.update id change) := by
  intro typed
  refine ⟨typed.update initialized, fun other gv found => ⟨_, update_found found, ?_⟩⟩
  by_cases here : id = other
  · rw [if_pos here]
    exact kept gv (here ▸ found)
  · rw [if_neg here]
    exact ⟨rfl, fun _ => rfl⟩

/-- A change of the name or the linkage. -/
theorem Tame.update_object (same : ∀ gv, (change gv).object = gv.object) : Tame before (before.update id change) := by
  have type : ∀ gv, (change gv).valueType = gv.valueType := fun gv => by
    unfold GlobalValue.valueType
    rw [same]
  have initializer : ∀ gv, (change gv).initializer = gv.initializer := fun gv => by
    unfold GlobalValue.initializer
    rw [same]
  refine .update (fun gv _ initialized constant full => ?_) fun gv _ => ⟨type gv, fun _ => same gv⟩
  rw [type]
  exact initialized constant (initializer gv ▸ full)

theorem Tame.setLinkage {linkage : Linkage} : Tame before (before.setLinkage id linkage) :=
  .update_object fun _ => rfl

theorem Tame.setName {name : Name} : Tame before (before.setName id name) := by
  unfold Llvm.Module.setName
  split
  · exact .refl
  · have cleared : Tame before (before.update id fun value => { value with name := [] }) :=
      .update_object fun _ => rfl
    exact cleared.trans (.update_object fun _ => rfl)

theorem Tame.setBody {body : Body} : Tame before (before.update id fun value => value.setBody body) := by
  refine .update (fun gv _ initialized => ?_) fun gv _ => ?_
  · obtain ⟨name, linkage, object⟩ := gv
    cases object with
    | function params result old =>
        intro constant full
        cases full
    | «variable» valueType isConstant initializer section_ => exact initialized
  · obtain ⟨name, linkage, object⟩ := gv
    cases object with
    | function params result old =>
        refine ⟨rfl, fun bytes => ?_⟩
        obtain ⟨count, isType⟩ := bytes
        cases isType
    | «variable» valueType isConstant initializer section_ => exact ⟨rfl, fun _ => rfl⟩

theorem valueType_setInitializer (gv : GlobalValue Body) (init : Constant) :
    (gv.setInitializer init).valueType = gv.valueType := by
  obtain ⟨name, linkage, object⟩ := gv
  cases object with
  | function params result body => rfl
  | «variable» valueType isConstant initializer section_ => rfl

theorem Initialized.setInitializer {gv : GlobalValue Body} {init : Constant} (fits : FitsType init gv.valueType) :
    Initialized (gv.setInitializer init) := by
  obtain ⟨name, linkage, object⟩ := gv
  intro constant full
  cases object with
  | function params result body => cases full
  | «variable» valueType isConstant initializer section_ =>
      cases full
      exact fits

/-- An initializer for a variable that has no bytes. -/
theorem Tame.setInitializer {gv : GlobalValue Body} {init : Constant} (found : before.values[id]? = some gv)
    (fits : FitsType init gv.valueType) (noBytes : ¬IsBytes gv) :
    Tame before (before.update id fun value => value.setInitializer init) := by
  refine .update (fun other foundOther _ => ?_) fun other foundOther => ?_
  · cases found.symm.trans foundOther
    exact .setInitializer fits
  · cases found.symm.trans foundOther
    exact ⟨valueType_setInitializer gv init, fun bytes => absurd bytes noBytes⟩

theorem Tame.create {name : Name} {linkage : Linkage} {object : GlobalObject Body}
    (initialized : Initialized ⟨name, linkage, object⟩) : Tame before (before.create name linkage object).2 := by
  intro typed
  refine ⟨fun other gv found => ?_, fun other gv found => ?_⟩
  · have found' : (before.values ++ [_])[other]? = some gv := found
    by_cases older : other < before.values.length
    · rw [List.getElem?_append_left older] at found'
      exact typed other gv found'
    · rw [List.getElem?_append_right (Nat.le_of_not_lt older)] at found'
      obtain ⟨_, same⟩ := List.getElem?_eq_some_iff.mp found'
      rw [List.getElem_singleton] at same
      cases same
      exact initialized
  · have inside := (List.getElem?_eq_some_iff.mp found).1
    exact ⟨gv, (List.getElem?_append_left inside).trans found, rfl, fun _ => rfl⟩

/-- Pointers for other pointers. -/
theorem Tame.replaceAllUsesWith {old new : Constant} {count : Nat} (fitsOld : FitsType old (.array count .ptr))
    (fitsNew : FitsType new (.array count .ptr)) : Tame before (before.replaceAllUsesWith old new) := by
  intro typed
  have isPointers : ∀ (id : Nat) (gv : GlobalValue Body), before.values[id]? = some gv →
      gv.initializer = some old → gv.valueType = .array count .ptr :=
    fun id gv found full => fitsOld.pointers_unique (typed id gv found old full)
  refine ⟨fun id gv' found' => ?_, fun id gv found => ?_⟩
  · cases found : before.values[id]? with
    | none =>
        rw [Llvm.Module.replaceAllUsesWith, List.getElem?_map, found] at found'
        cases found'
    | some gv =>
        rw [replaceAllUsesWith_getElem? found] at found'
        cases found'
        by_cases full : gv.initializer = some old
        · rw [if_pos full]
          exact .setInitializer (isPointers id gv found full ▸ fitsNew)
        · rw [if_neg full]
          exact typed id gv found
  · rw [replaceAllUsesWith_getElem? found]
    by_cases full : gv.initializer = some old
    · rw [if_pos full]
      refine ⟨_, rfl, valueType_setInitializer gv new, fun bytes => ?_⟩
      obtain ⟨bytes, isBytes⟩ := bytes
      cases isBytes.symm.trans (isPointers id gv found full)
    · rw [if_neg full]
      exact ⟨gv, rfl, rfl, fun _ => rfl⟩

theorem clearName_tame (name : Name) : Tame before (clearName name before) := by
  unfold clearName
  split
  · exact .setName
  · exact .refl

theorem renameMain_tame (function : Nat) : Tame before (renameMain function before) := by
  unfold renameMain
  split
  · exact (Tame.setLinkage.trans (clearName_tame _)).trans .setName
  · exact .refl

theorem exportName_tame (opts : Options) (function : Nat) (name : Name) :
    Tame before (exportName opts function name before) := by
  unfold exportName
  split
  · exact .refl
  · split
    · exact (clearName_tame _).trans .setName
    · split
      · exact .setName
      · exact .refl

end Changes

/-! ## Steps -/

/-- Variables have initializers of their types, and tables are arrays of pointers. -/
structure Typed (context : Context) : Prop where
  values : TypedValues context.llvmModule
  tables : ∀ id ∈ context.tables, ∃ gv count, context.llvmModule.values[id]? = some gv ∧
    gv.valueType = .array count .ptr

/-- The later state has the arrays, the memories and the variables of bytes of the earlier
one. -/
structure Keeps (before after : Context) : Prop where
  opts : after.opts = before.opts
  limits : after.module.memories.map Memory.pageLimits = before.module.memories.map Memory.pageLimits
  arrays : after.arrays = before.arrays
  mems : after.mems = before.mems
  memIndex : after.memIndex = before.memIndex
  values : KeepsValues before.llvmModule after.llvmModule

theorem Keeps.refl {context : Context} : Keeps context context :=
  ⟨rfl, rfl, rfl, rfl, rfl, fun _ gv found => ⟨gv, found, rfl, fun _ => rfl⟩⟩

theorem Keeps.trans {first second third : Context} (left : Keeps first second) (right : Keeps second third) :
    Keeps first third where
  opts := right.opts.trans left.opts
  limits := right.limits.trans left.limits
  arrays := right.arrays.trans left.arrays
  mems := right.mems.trans left.mems
  memIndex := right.memIndex.trans left.memIndex
  values := left.values.trans right.values

/-- What is well typed stays so, and bytes are kept. -/
def keepGrading : Grading Context Unit :=
  .ofPreorder (fun before after => Typed before → Typed after ∧ Keeps before after)
    (fun _ typed => ⟨typed, .refl⟩)
    fun left right typed => ⟨(right (left typed).1).1, (left typed).2.trans (right (left typed).1).2⟩

/-- A computation that leaves bytes alone. -/
abbrev KeepsBytes {α : Type} (before : Context) (emit : Translate α) : Prop :=
  Effect keepGrading before emit ()

section Steps

variable {before : Context}

/-- The other fields of the context are left alone. -/
theorem keeps_modify {update : Context → Context} (tame : Tame before.llvmModule (update before).llvmModule)
    (opts : (update before).opts = before.opts)
    (limits : (update before).module.memories.map Memory.pageLimits = before.module.memories.map Memory.pageLimits)
    (arrays : (update before).arrays = before.arrays) (mems : (update before).mems = before.mems)
    (memIndex : (update before).memIndex = before.memIndex) (tables : (update before).tables = before.tables) :
    KeepsBytes before (modify update) := by
  refine .modify fun typed => ?_
  obtain ⟨values, keeps⟩ := tame typed.values
  refine ⟨⟨values, fun id member => ?_⟩, ⟨opts, limits, arrays, mems, memIndex, keeps⟩⟩
  obtain ⟨gv, count, found, isPointers⟩ := typed.tables id (tables ▸ member)
  obtain ⟨gv', found', type, _⟩ := keeps id gv found
  exact ⟨gv', count, found', type.trans isPointers⟩

theorem keeps_updateModule {change : Llvm.Module Body → Llvm.Module Body}
    (tame : Tame before.llvmModule (change before.llvmModule)) : KeepsBytes before (updateModule change) :=
  keeps_modify tame rfl rfl rfl rfl rfl rfl

theorem createGlobalValue_found {entity : Entity} {name : Name} {linkage : Linkage} {object : GlobalObject Body}
    {id : Nat} {after : Context} (ran : createGlobalValue entity name linkage object before = .ok (id, after)) :
    ∃ unique, after.llvmModule.values[id]? = some ⟨unique, linkage, object⟩ := by
  cases ran
  refine ⟨(uniqueName before.llvmModule.names before.llvmModule.lastUnique name).1, ?_⟩
  show (before.llvmModule.values ++ [_])[before.llvmModule.values.length]? = _
  rw [List.getElem?_append_right (Nat.le_refl _), Nat.sub_self]
  rfl

theorem createGlobalValue_keeps {entity : Entity} {name : Name} {linkage : Linkage} {object : GlobalObject Body}
    (initialized : ∀ unique, Initialized ⟨unique, linkage, object⟩) :
    KeepsBytes before (createGlobalValue entity name linkage object) where
  run ran typed := by
    cases ran
    have created : KeepsBytes before (modify fun context => { context with
        llvmModule := (before.llvmModule.create name linkage object).2
        entities := before.entities ++ [entity] }) :=
      keeps_modify (.create (initialized _)) rfl rfl rfl rfl rfl rfl
    exact created.run rfl typed

/-- A new value, which the rest finds in its place. -/
theorem keeps_create {β : Type} {next : Nat → Translate β} {entity : Entity} {name : Name} {linkage : Linkage}
    {object : GlobalObject Body} (initialized : ∀ unique, Initialized ⟨unique, linkage, object⟩)
    (rest : ∀ {id middle unique}, middle.llvmModule.values[id]? = some ⟨unique, linkage, object⟩ →
      KeepsBytes middle (next id)) :
    KeepsBytes before (createGlobalValue entity name linkage object >>= next) := by
  refine (createGlobalValue_keeps initialized).skip fun ran => ?_
  obtain ⟨unique, found⟩ := createGlobalValue_found ran
  exact rest found

/-- An import changes the name of its entity. -/
theorem nameImport_keeps (entity : Import) : KeepsBytes before (nameImport entity) := by
  obtain ⟨moduleName, fieldName, kind, index⟩ := entity
  cases kind with
  | memory =>
      refine keeps_modify .refl rfl ?_ rfl rfl rfl rfl
      have same : ∀ memory : Memory, Memory.pageLimits { memory with
          name := nameIfEmpty memory.name (moduleName ++ '.' :: fieldName) } = memory.pageLimits := fun _ => rfl
      exact map_modify_same same before.module.memories index
  | func => exact keeps_modify .refl rfl rfl rfl rfl rfl rfl
  | global => exact keeps_modify .refl rfl rfl rfl rfl rfl rfl
  | table => exact keeps_modify .refl rfl rfl rfl rfl rfl rfl
  | tag => exact keeps_modify .refl rfl rfl rfl rfl rfl rfl

theorem declareFunc_keeps (index : Nat) (isExternal : Bool) : KeepsBytes before (declareFunc index isExternal) := by
  unfold declareFunc
  refine .get (at_reads.skip fun _ => convertFuncType_reads.skip fun {pair _} _ => ?_)
  obtain ⟨params, result⟩ := pair
  have initialized : ∀ name linkage, Initialized ⟨name, linkage, .function params result none⟩ := by
    intro name linkage constant full
    cases full
  refine keeps_create (initialized · _) fun _ => Effect.then_ ?_ fun _ => .pure _
  exact keeps_modify .refl rfl rfl rfl rfl rfl rfl

/-- No value of a WebAssembly type is an array. -/
theorem convertType_array {type : ValType} {converted : Ty} {after : Context}
    (ran : convertType type before = .ok (converted, after)) : ∀ count element, converted ≠ .array count element := by
  intro count element same
  unfold convertType at ran
  cases type <;> cases ran <;> cases same

theorem visitGlobal_keeps (index : Nat) (isExternal : Bool) : KeepsBytes before (visitGlobal index isExternal) := by
  unfold visitGlobal
  refine .get (at_reads.skip fun _ => convertType_reads.skip fun {type _} ranType => ?_)
  have noArray := convertType_array ranType
  have initialized : ∀ name linkage isConstant,
      Initialized ⟨name, linkage, .variable type isConstant none none⟩ := by
    intro name linkage isConstant constant full
    cases full
  have pushed : ∀ {middle : Context} {id : Nat}, KeepsBytes middle (modify fun context =>
      { context with globs := context.globs ++ [id], globIndex := context.globIndex + 1 }) :=
    keeps_modify .refl rfl rfl rfl rfl rfl rfl
  refine keeps_create (initialized · _ _) fun found => ?_
  cases isExternal with
  | true => exact pushed
  | false =>
      refine visitInitExpr_reads.skip fun {init _} ran => ?_
      cases visitInitExpr_reads.same ran
      refine Effect.skip (keeps_updateModule (.setInitializer found ?_ ?_)) fun _ => pushed
      · cases init with
        | none => rfl
        | some value => exact noArray
      · intro bytes
        obtain ⟨count, isType⟩ := bytes
        exact noArray _ _ isType

theorem visitTable_keeps (index : Nat) (isExternal : Bool) : KeepsBytes before (visitTable index isExternal) := by
  unfold visitTable
  refine .get (at_reads.skip fun {table _} _ => .ite (fun _ => .throw _) fun _ => ?_)
  have initialized : ∀ name linkage,
      Initialized ⟨name, linkage, .variable (.array table.elemLimits.initial .ptr) false none none⟩ := by
    intro name linkage constant full
    cases full
  refine keeps_create (initialized · _) fun {id middle name} found => .modify fun typed => ?_
  have same : Keeps middle middle := .refl
  refine ⟨⟨typed.values, fun other member => ?_⟩, ⟨rfl, rfl, rfl, rfl, rfl, same.values⟩⟩
  cases List.mem_append.mp member with
  | inl older => exact typed.tables other older
  | inr new =>
      cases List.mem_singleton.mp new
      exact ⟨_, _, found, rfl⟩

theorem fixNames_keeps (function : Nat) : KeepsBytes before (fixNames function) := by
  have renamed : ∀ {before : Context} (name new : Name),
      KeepsBytes before (updateModule (renameFunction function name new)) := by
    intro before name new
    refine keeps_updateModule ?_
    unfold renameFunction
    split
    · exact .setName
    · exact .refl
  have dollar : ∀ {before : Context}, KeepsBytes before (removeDollarName function) := by
    intro before
    unfold removeDollarName
    refine .get ?_
    split
    · exact .throw _
    · exact keeps_updateModule .setName
    · exact .pure _
  have rest : ∀ {before : Context}, KeepsBytes before (do
      updateModule (renameMain function)
      updateModule (renameFunction function "memset".toList "memset_1".toList)
      updateModule (renameFunction function "memcpy".toList "memcpy_1".toList)) :=
    Effect.skip (keeps_updateModule (renameMain_tame function)) fun _ => (renamed _ _).skip fun _ => renamed _ _
  unfold fixNames
  refine .get (.ite (fun _ => ?_) fun _ => .ite (fun _ => ?_) fun _ => .pure _)
  · exact .ite (fun _ => dollar.skip fun _ => rest) fun _ => rest
  · exact keeps_updateModule .setLinkage

theorem declareFuncs_keeps (indices : List Nat) : KeepsBytes before (declareFuncs indices) := by
  induction indices generalizing before with
  | nil => exact .pure _
  | cons index rest ih =>
      unfold declareFuncs
      exact (declareFunc_keeps index false).skip fun _ => (fixNames_keeps _).skip fun _ => ih.skip fun _ => .pure _

theorem insertDeclaration_keeps (declaration : Declaration) : KeepsBytes before (insertDeclaration declaration) := by
  have initialized : ∀ name linkage, Initialized
      ⟨name, linkage, .function declaration.params declaration.result none⟩ := by
    intro name linkage constant full
    cases full
  exact keeps_create (initialized · _) fun _ => .pure _

theorem visitFuncs_keeps (indices functions : List Nat) : KeepsBytes before (visitFuncs indices functions) := by
  refine visitFuncs_effect indices functions (fun declaration _ _ => ?_) fun _ _ _ => keeps_updateModule .setBody
  exact getOrInsertDeclaration_effect declaration (fun _ => insertDeclaration_keeps declaration) fun _ _ =>
    keeps_updateModule .setName

theorem visitExport_keeps (entity : Export) : KeepsBytes before (visitExport entity) := by
  have external : ∀ {before : Context} (values : List Nat) (index : Nat),
      KeepsBytes before (exportEntity values index) := by
    intro before values index
    unfold exportEntity
    exact at_reads.skip fun _ => Effect.skip (keeps_updateModule .setLinkage) fun _ => .pure _
  unfold visitExport
  refine .get ?_
  cases entity.kind with
  | func => exact (external _ _).skip fun _ => keeps_updateModule (exportName_tame _ _ _)
  | memory => exact (external _ _).skip fun _ => .pure _
  | global => exact (external _ _).skip fun _ => .pure _
  | table => exact .pure _
  | tag => exact .pure _

theorem assignDefaultNames_keeps (functions : List Nat) (index : Nat) :
    KeepsBytes before (assignDefaultNames functions index) := by
  induction functions generalizing before index with
  | nil => exact .pure _
  | cons function functions ih =>
      unfold assignDefaultNames
      refine Effect.skip (keeps_updateModule ?_) fun _ => ih (index + 1)
      unfold defaultName
      split
      · exact .setName
      · exact .refl

/-- The initializer of a table is replaced by one for as many slots. -/
theorem visitElem_keeps (elem : ElemSegment) : KeepsBytes before (visitElem elem) := by
  refine ⟨fun {_ after} ran typed => ?_⟩
  obtain ⟨id, gv, init, builds, replaces⟩ := visitElem_ok ran
  obtain ⟨gv', count, found, isPointers⟩ := typed.tables id (List.mem_of_getElem? builds.inTables)
  cases found.symm.trans builds.found
  have fits : FitsType init (.array count .ptr) := by
    obtain ⟨offset, slots, ranSlots, isInit⟩ := builds.slots
    have length : slots.length = count := by
      rw [← (elemSlots_ok ranSlots).length_eq, List.length_range, isPointers]
      rfl
    rw [isInit, ← length]
    exact getPointers_fits slots
  have changed : ∀ change : Llvm.Module Body → Llvm.Module Body, Tame before.llvmModule (change before.llvmModule) →
      Typed { before with llvmModule := change before.llvmModule } ∧
        Keeps before { before with llvmModule := change before.llvmModule } :=
    fun change tame => (keeps_updateModule tame).run rfl typed
  cases replaces with
  | set empty =>
      refine changed (fun llvmModule => llvmModule.update id fun value => value.setInitializer init)
        (.setInitializer found (isPointers ▸ fits) fun bytes => ?_)
      obtain ⟨bytes, isBytes⟩ := bytes
      cases isBytes.symm.trans isPointers
  | unused full unused => exact ⟨typed, .refl⟩
  | everywhere full used different =>
      exact changed (fun llvmModule => llvmModule.replaceAllUsesWith _ init)
        (.replaceAllUsesWith (isPointers ▸ typed.values id gv found _ full) fits)

end Steps

end WasmToLlvm.Modules
