import WasmToLlvm.Library.Overwriting
import WasmToLlvm.Library.SharedCells
import WasmToLlvm.Modules.Compiled

/-!
# The image of a table

Visiting an element segment builds the array for the whole table, so that what earlier
segments gave is lost. All segments together do to the tables what putting arrays into cells
does that share them.
-/

set_option autoImplicit false

namespace WasmToLlvm.Modules

open Llvm Wasm Block Instruction Library

/-! ## What segments give -/

def ElemExpr.func? : ElemExpr → Option Nat
  | .refFunc func => some func
  | .other => none

/-- The functions of a segment with their place in the table. -/
def ElemSegment.piece (elem : ElemSegment) : Nat × List Nat :=
  match elem.offset with
  | [.const (.i32 u)] => (u.toNat, elem.elemExprs.filterMap ElemExpr.func?)
  | _ => (0, elem.elemExprs.filterMap ElemExpr.func?)

/-- The array that a segment gives for so many slots: its functions, and null elsewhere. -/
def ElemSegment.array (elem : ElemSegment) (size : Nat) : List (Option Nat) :=
  (List.range size).map (pieceAt elem.piece)

/-- The slots of the variable in a place of `tables`, where an imported table is twice. -/
def Module.slotCount (module : Module) (index : Nat) : Nat :=
  (((module.imported .table ++ List.range module.tables.length)[index]?).map module.tableSize).getD 0

/-- The arrays of the segments with their tables. -/
def Module.arrays (module : Module) (elems : List ElemSegment) : List (Nat × List (Option Nat)) :=
  elems.map fun elem => (elem.table, elem.array (module.slotCount elem.table))

/-- LLVM knows where an array is used unless it is null and LLVM keeps no uses of constant data. -/
def Options.replaceable (opts : Options) (array : List (Option Nat)) : Bool :=
  opts.constantDataUses || array.any Option.isSome

/-- The function that the last segment covering a slot of the table gives, or null. -/
def Module.expectedSlot (module : Module) (table slot : Nat) : Option Nat :=
  lastPiece ((module.elemSegments.filter (·.table = table)).map ElemSegment.piece) slot

/-- An active segment of functions of the module, at a constant offset. -/
structure ElemSegment.Active (module : Module) (elem : ElemSegment) : Prop where
  kind : elem.kind = .active
  elemType : elem.elemType = .funcRef
  offset : ∃ u : BitVec 32, elem.offset = [.const (.i32 u)]
  functions : ∃ funcs : List Nat, elem.elemExprs = funcs.map .refFunc ∧ ∀ func ∈ funcs, func < module.funcs.length
  table : elem.table < module.tables.length

/-- The constant for an array of function indices. -/
def Context.pointers (context : Context) (array : List (Option Nat)) : Constant :=
  getPointers (array.map (·.bind (context.funcs[·]?)))

section Arrays

variable {module : Module} {elem : ElemSegment} {slot : Nat}

theorem ElemSegment.Active.piece_eq (active : elem.Active module) : ∃ (u : BitVec 32) (funcs : List Nat),
    elem.offset = [.const (.i32 u)] ∧ elem.elemExprs = funcs.map .refFunc ∧
      (∀ func ∈ funcs, func < module.funcs.length) ∧ elem.piece = (u.toNat, funcs) := by
  obtain ⟨u, isOffset⟩ := active.offset
  obtain ⟨funcs, isFuncs, bound⟩ := active.functions
  refine ⟨u, funcs, isOffset, isFuncs, bound, ?_⟩
  unfold ElemSegment.piece
  rw [isOffset, isFuncs, List.filterMap_map]
  exact congrArg (Prod.mk u.toNat) List.filterMap_some

/-- A slot has a function of the module. -/
theorem ElemSegment.Active.pieceAt_lt (active : elem.Active module) {func : Nat}
    (given : pieceAt elem.piece slot = some func) : func < module.funcs.length := by
  obtain ⟨u, funcs, _, _, bound, piece⟩ := active.piece_eq
  rw [piece, pieceAt] at given
  split at given
  · exact bound func (List.mem_of_getElem? given)
  · cases given

end Arrays

/-! ## Constants -/

theorem getPointers_eq_iff {elements others : List (Option Nat)} :
    getPointers elements = getPointers others ↔ elements = others := by
  refine ⟨fun same => ?_, congrArg _⟩
  unfold getPointers at same
  split at same
  · rename_i nulls
    split at same
    · rename_i nullsOther
      have lengths : elements.length = others.length := by
        injection same with types
        injection types
      have isNull : ∀ list : List (Option Nat), list.all Option.isNone = true → list = List.replicate list.length none :=
        fun list nulls => List.eq_replicate_iff.mpr ⟨rfl, fun element member =>
          Option.isNone_iff_eq_none.mp (List.all_eq_true.mp nulls element member)⟩
      rw [isNull elements nulls, isNull others nullsOther, lengths]
    · cases same
  · split at same
    · cases same
    · injection same

/-- The entry of a constant array of pointers. -/
def slotOf (constant : Constant) (slot : Nat) : Option (Option Nat) :=
  match constant with
  | .pointers elements => elements[slot]?
  | .zero (.array count .ptr) => if slot < count then some none else none
  | _ => none

theorem slotOf_getPointers (elements : List (Option Nat)) (slot : Nat) :
    slotOf (getPointers elements) slot = elements[slot]? := by
  unfold getPointers
  split
  · rename_i nulls
    by_cases inside : slot < elements.length
    · have null : elements[slot] = none :=
        Option.isNone_iff_eq_none.mp (List.all_eq_true.mp nulls _ (List.getElem_mem inside))
      rw [slotOf, if_pos inside, List.getElem?_eq_getElem inside, null]
    · rw [slotOf, if_neg inside, List.getElem?_eq_none (Nat.le_of_not_lt inside)]
  · rfl

/-- The array has functions of the context only. -/
def Context.Resolves (context : Context) (array : List (Option Nat)) : Prop :=
  ∀ func, some func ∈ array → func < context.funcs.length

section Pointers

variable {context : Context} {array other : List (Option Nat)} {slot other' : Option Nat}

/-- Different functions have different objects. -/
theorem resolve_inj (nodup : context.funcs.Nodup) (bound : ∀ func, slot = some func → func < context.funcs.length)
    (same : slot.bind (context.funcs[·]?) = other'.bind (context.funcs[·]?))
    (boundOther : ∀ func, other' = some func → func < context.funcs.length) : slot = other' := by
  cases slot with
  | none =>
      cases other' with
      | none => rfl
      | some func =>
          rw [Option.bind_none, Option.bind_some, List.getElem?_eq_getElem (boundOther func rfl)] at same
          cases same
  | some func =>
      have inside := bound func rfl
      cases other' with
      | none =>
          rw [Option.bind_none, Option.bind_some, List.getElem?_eq_getElem inside] at same
          cases same
      | some func' => exact congrArg some ((List.getElem?_inj inside nodup).mp same)

theorem pointers_eq_iff (nodup : context.funcs.Nodup) (resolves : context.Resolves array)
    (resolvesOther : context.Resolves other) : context.pointers array = context.pointers other ↔ array = other := by
  refine ⟨fun same => ?_, congrArg _⟩
  have maps := getPointers_eq_iff.mp same
  have lengths : array.length = other.length := by simpa using congrArg List.length maps
  refine List.ext_getElem lengths fun index inside insideOther => ?_
  refine resolve_inj nodup (fun func isFunc => resolves func (isFunc ▸ List.getElem_mem inside)) ?_
    fun func isFunc => resolvesOther func (isFunc ▸ List.getElem_mem insideOther)
  have entry := congrArg (·[index]?) maps
  simpa [List.getElem?_eq_getElem inside, List.getElem?_eq_getElem insideOther] using entry

/-- An array of functions is constant data exactly if it is null. -/
theorem hasUseList_pointers (opts : Options) (resolves : context.Resolves array) :
    opts.hasUseList (context.pointers array) = opts.replaceable array := by
  have nulls : (array.map (·.bind (context.funcs[·]?))).all Option.isNone = !array.any Option.isSome := by
    rw [List.all_map, List.not_any_eq_all_not, Bool.eq_iff_iff, List.all_eq_true, List.all_eq_true]
    refine forall₂_congr fun slot member => ?_
    cases slot with
    | none => exact Iff.rfl
    | some func =>
        rw [Function.comp_apply, Option.bind_some, List.getElem?_eq_getElem (resolves func member)]
        exact Iff.rfl
  unfold Context.pointers getPointers Options.replaceable
  rw [nulls]
  cases array.any Option.isSome with
  | false => exact (Bool.or_false _).symm
  | true => exact (Bool.or_true _).symm

end Pointers

/-! ## One segment -/

section Visit

variable {opts : Options} {module : Module} {before after : Context} {elem : ElemSegment} {size slot : Nat}

theorem elemSlot_run {u : BitVec 32} {funcs : List Nat} (isFuncs : elem.elemExprs = funcs.map .refFunc)
    (bound : ∀ func ∈ funcs, func < before.funcs.length) :
    elemSlot elem before.funcs u.toNat slot before =
      .ok ((pieceAt (u.toNat, funcs) slot).bind (before.funcs[·]?), before) := by
  have allRef : elem.allRefFunc = true := by
    rw [ElemSegment.allRefFunc, isFuncs, List.all_map, List.all_eq_true]
    exact fun _ _ => rfl
  unfold elemSlot
  rw [isFuncs, List.length_map]
  by_cases covered : u.toNat ≤ slot ∧ slot < u.toNat + funcs.length
  · have place : slot - u.toNat < funcs.length := by omega
    have isFunc := bound _ (List.getElem_mem place)
    rw [if_pos covered, if_pos allRef, pieceAt, if_pos covered.1]
    simp only [List.getElem?_map, List.getElem?_eq_getElem place, Option.map_some, at_, List.getElem?_eq_getElem isFunc,
      pure_bind_run, pure_run, Option.bind_some]
  · rw [if_neg covered, pieceAt_eq_none_iff.mpr covered]
    rfl

theorem elemSlots_run {u : BitVec 32} {funcs : List Nat} (isFuncs : elem.elemExprs = funcs.map .refFunc)
    (bound : ∀ func ∈ funcs, func < before.funcs.length) (places : List Nat) :
    elemSlots elem before.funcs u.toNat places before =
      .ok (places.map fun slot => (pieceAt (u.toNat, funcs) slot).bind (before.funcs[·]?), before) := by
  induction places with
  | nil => rfl
  | cons slot places ih =>
      unfold elemSlots
      rw [bind_run_ok (elemSlot_run isFuncs bound), bind_run_ok ih]
      rfl

/-- The sign of an offset is lost again in 32 bits. -/
theorem toNat_signExtend_mod (u : BitVec 32) : (u.signExtend 64).toNat % 2 ^ 32 = u.toNat := by
  have bound := u.isLt
  rw [toNat_signExtend_64]
  split
  · exact Nat.mod_eq_of_lt bound
  · omega

/-- The variable of a table. -/
theorem Prepared.table (prepared : Prepared opts module before) {table : Nat} (inside : table < module.tables.length) :
    ∃ id gv, before.tables[table]? = some id ∧ before.llvmModule.values[id]? = some gv ∧ gv.isFunction = false ∧
      arraySize gv.valueType = module.slotCount table := by
  have sizes : before.tables.map (fun id => arraySize (((before.llvmModule.values[id]?).map
      GlobalValue.valueType).getD .void)) =
        (module.imported .table ++ List.range module.tables.length).map module.tableSize :=
    congrArg Environment.tables prepared.environment_eq
  have lengths := congrArg List.length sizes
  rw [List.length_map, List.length_map, List.length_append, List.length_range] at lengths
  have inTables : table < before.tables.length := by omega
  obtain ⟨index, isTable⟩ := prepared.formed.tables _ (List.getElem_mem inTables)
  obtain ⟨object, found, isFor⟩ := prepared.formed.object isTable
  rw [Llvm.Module.objects_getElem?] at found
  obtain ⟨gv, foundValue, isObject⟩ := Option.map_eq_some_iff.mp found
  refine ⟨before.tables[table], gv, List.getElem?_eq_getElem inTables, foundValue, ?_, ?_⟩
  · rw [← isObject] at isFor
    obtain ⟨name, linkage, object⟩ := gv
    cases isFor with
    | table found pointers => rfl
  · have size := congrArg (·[table]?) sizes
    simp only [List.getElem?_map, List.getElem?_eq_getElem inTables, Option.map_some, foundValue] at size
    rw [Module.slotCount, ← size]
    rfl

/-- Visiting a segment replaces the initializer of its table by the array of the segment. -/
theorem visitElem_eq (prepared : Prepared opts module before) (count : before.funcs.length = module.funcs.length)
    (active : elem.Active module) : ∃ id gv, before.tables[elem.table]? = some id ∧
      before.llvmModule.values[id]? = some gv ∧ gv.isFunction = false ∧
      visitElem elem before =
        replaceInitializer id (before.pointers (elem.array (module.slotCount elem.table))) before := by
  obtain ⟨id, gv, inTables, found, isVariable, size⟩ := prepared.table active.table
  obtain ⟨u, funcs, isOffset, isFuncs, bound, piece⟩ := active.piece_eq
  refine ⟨id, gv, inTables, found, isVariable, ?_⟩
  have slots := elemSlots_run (u := u) isFuncs (fun func member => count ▸ bound func member)
    (List.range (module.slotCount elem.table))
  unfold visitElem at_
  rw [if_neg (not_not.mpr active.elemType), if_neg (not_not.mpr active.kind)]
  simp only [get_bind_run, inTables, found, pure_bind_run, isOffset, visitInitExpr, unwrapIntConstant_const,
    toNat_signExtend_mod, size]
  rw [bind_run_ok slots, Context.pointers, ElemSegment.array, List.map_map, piece]
  rfl

/-- A variable has a new initializer unless it has the same one already and LLVM knows that. -/
theorem replaceInitializer_completes_iff {id : Nat} {gv : GlobalValue Body} {init : Constant}
    (found : before.llvmModule.values[id]? = some gv) :
    (∃ after, replaceInitializer id init before = .ok ((), after)) ↔
      ¬(gv.initializer = some init ∧ before.opts.hasUseList init = true) := by
  unfold replaceInitializer at_
  simp only [get_bind_run, found, pure_bind_run]
  cases gv.initializer with
  | none => exact iff_of_true ⟨_, rfl⟩ (nomatch ·.1)
  | some old =>
      by_cases used : before.opts.hasUseList old = true
      · by_cases same : old = init
        · simp only [if_pos used, if_pos same]
          exact iff_of_false (fun completes => nomatch completes.choose_spec)
            (not_not.mpr ⟨congrArg some same, same ▸ used⟩)
        · simp only [if_pos used, if_neg same]
          exact iff_of_true ⟨_, rfl⟩ fun again => same (Option.some.inj again.1)
      · simp only [if_neg used]
        refine iff_of_true ⟨_, rfl⟩ fun again => used ?_
        rw [Option.some.inj again.1]
        exact again.2

end Visit

/-! ## All segments -/

/-- The tables have the arrays that are in the cells. -/
structure Filling (opts : Options) (module : Module) (cells : Nat → Option (List (Option Nat))) (context : Context) :
    Prop where
  prepared : Prepared opts module context
  distinct : context.tables.Nodup
  functions : context.funcs.Nodup
  count : context.funcs.length = module.funcs.length
  initializers : ∀ table, context.tableInitializer table = (cells table).map context.pointers
  resolves : ∀ table array, cells table = some array → context.Resolves array

section Fill

variable {opts : Options} {module : Module} {before after : Context} {elem : ElemSegment} {elems : List ElemSegment}
  {cells cells' : Nat → Option (List (Option Nat))}

theorem Replaces.context {id : Nat} {gv : GlobalValue Body} {init : Constant}
    (replaces : Replaces before id gv init after) : after = { before with llvmModule := after.llvmModule } := by
  cases replaces <;> rfl

/-- The functions of a segment are functions of the module. -/
theorem Filling.resolves_array (filling : Filling opts module cells before) (active : elem.Active module) (size : Nat) :
    before.Resolves (elem.array size) := by
  intro func member
  obtain ⟨slot, _, given⟩ := List.mem_map.mp member
  rw [filling.count]
  exact active.pieceAt_lt given

/-- The same array in a cell is the same constant in a table. -/
theorem Filling.initializer_iff (filling : Filling opts module cells before) {table : Nat} {array : List (Option Nat)}
    (resolves : before.Resolves array) :
    before.tableInitializer table = some (before.pointers array) ↔ cells table = some array := by
  rw [filling.initializers]
  refine ⟨fun same => ?_, fun same => by rw [same]; rfl⟩
  obtain ⟨held, isHeld, same⟩ := Option.map_eq_some_iff.mp same
  rw [isHeld, (pointers_eq_iff filling.functions (filling.resolves table held isHeld) resolves).mp same]

/-- A segment is visited exactly if its array can be put into the cell of its table. -/
theorem Filling.completes_iff (filling : Filling opts module cells before) (active : elem.Active module) :
    (∃ after, visitElem elem before = .ok ((), after)) ↔
      ∃ cells', put opts.replaceable cells elem.table (elem.array (module.slotCount elem.table)) = some cells' := by
  obtain ⟨id, gv, inTables, found, isVariable, run⟩ := visitElem_eq filling.prepared filling.count active
  have resolves := filling.resolves_array active (module.slotCount elem.table)
  rw [run, replaceInitializer_completes_iff found, ← tableInitializer_eq inTables found,
    filling.initializer_iff resolves, hasUseList_pointers before.opts resolves, filling.prepared.formed.opts,
    ← put_eq_none_iff, ← Option.isSome_iff_exists, Option.isSome_iff_ne_none]

/-- Replacing the initializer of a table does what putting the array into its cell does. -/
theorem Filling.replaced (filling : Filling opts module cells before) {id table : Nat} {gv : GlobalValue Body}
    {array : List (Option Nat)} (inTables : before.tables[table]? = some id)
    (found : before.llvmModule.values[id]? = some gv) (isVariable : gv.isFunction = false)
    (replaces : Replaces before id gv (before.pointers array) after)
    (isPut : put opts.replaceable cells table array = some cells') (other : Nat) :
    after.tableInitializer other = (cells' other).map before.pointers := by
  have own : gv.initializer = (cells table).map before.pointers :=
    (tableInitializer_eq inTables found).symm.trans (filling.initializers table)
  obtain ⟨empty, rfl⟩ | ⟨old, held, used, different, rfl⟩ | ⟨old, held, fixed, rfl⟩ := put_cases isPut
  · have bare : gv.initializer = none := by rw [own, empty]; rfl
    by_cases same : other = table
    · rw [same, Function.update_self]
      exact replaces.own inTables found isVariable fun old full => nomatch bare.symm.trans full
    · rw [Function.update_of_ne same, ← filling.initializers]
      exact replaces.apart filling.distinct inTables same fun old full => nomatch bare.symm.trans full
  · rw [held] at own
    have resolvesOld := filling.resolves table old held
    have usedConstant : before.opts.hasUseList (before.pointers old) = true := by
      rw [hasUseList_pointers _ resolvesOld, filling.prepared.formed.opts, used]
    beta_reduce
    by_cases shares : cells other = some old
    · rw [if_pos shares]
      exact (replaces.shared own usedConstant ((filling.initializer_iff resolvesOld).mpr shares)).1
    · rw [if_neg shares, ← filling.initializers]
      have differs : other ≠ table := fun same => shares (same ▸ held)
      refine replaces.apart filling.distinct inTables differs fun constant full _ shared => ?_
      cases own.symm.trans full
      exact shares ((filling.initializer_iff resolvesOld).mp shared)
  · rw [held] at own
    have unused : before.opts.hasUseList (before.pointers old) = false := by
      rw [hasUseList_pointers _ (filling.resolves table old held), filling.prepared.formed.opts, fixed]
    rw [← filling.initializers]
    cases replaces with
    | set empty => cases own.symm.trans empty
    | everywhere full used different =>
        cases own.symm.trans full
        cases unused.symm.trans used
    | unused full unused => rfl

/-- Then the tables have what is in the cells. -/
theorem Filling.step (filling : Filling opts module cells before) (active : elem.Active module)
    (member : elem ∈ module.elemSegments) (ran : visitElem elem before = .ok ((), after))
    (isPut : put opts.replaceable cells elem.table (elem.array (module.slotCount elem.table)) = some cells') :
    Filling opts module cells' after ∧ after.funcs = before.funcs := by
  obtain ⟨id, gv, inTables, found, isVariable, run⟩ := visitElem_eq filling.prepared filling.count active
  have replaces := replaceInitializer_ok found (run ▸ ran)
  have resolves := filling.resolves_array active (module.slotCount elem.table)
  generalize elem.array (module.slotCount elem.table) = array at replaces resolves isPut
  have formed := ((visitElem_forms (List.ne_nil_of_mem member)).run ran filling.prepared.formed).1
  have pointers : after.pointers = before.pointers := by
    funext array
    rw [Context.pointers, Context.pointers, replaces.funcs]
  have initializers := filling.replaced inTables found isVariable replaces isPut
  have kept := put_holds isPut filling.resolves resolves
  have context := replaces.context
  generalize after.llvmModule = llvmModule at context
  subst context
  exact ⟨⟨⟨formed, filling.prepared.mems, filling.prepared.tables⟩, filling.distinct, filling.functions, filling.count,
    initializers, kept⟩, rfl⟩

/-- All segments are visited exactly if all arrays can be put into the cells, and then the
tables have what is in them. -/
theorem Filling.run (filling : Filling opts module cells before)
    (active : ∀ elem ∈ elems, elem.Active module ∧ elem ∈ module.elemSegments) :
    ((∃ after, elems.forM visitElem before = .ok ((), after)) ↔
      ∃ cells', putAll opts.replaceable cells (module.arrays elems) = some cells') ∧
    ∀ after cells', elems.forM visitElem before = .ok ((), after) →
      putAll opts.replaceable cells (module.arrays elems) = some cells' →
        Filling opts module cells' after ∧ after.funcs = before.funcs := by
  induction elems generalizing before cells with
  | nil =>
      refine ⟨iff_of_true ⟨before, rfl⟩ ⟨cells, rfl⟩, fun after cells' ran isPut => ?_⟩
      cases ran
      cases isPut
      exact ⟨filling, rfl⟩
  | cons elem rest ih =>
      obtain ⟨isActive, member⟩ := active elem List.mem_cons_self
      have first := filling.completes_iff isActive
      have split : putAll opts.replaceable cells (module.arrays (elem :: rest)) =
          (put opts.replaceable cells elem.table (elem.array (module.slotCount elem.table))).bind
            (putAll opts.replaceable · (module.arrays rest)) := putAll_cons
      have later : ∀ {middle cells'}, visitElem elem before = .ok ((), middle) →
          put opts.replaceable cells elem.table (elem.array (module.slotCount elem.table)) = some cells' →
            Filling opts module cells' middle ∧ middle.funcs = before.funcs := filling.step isActive member
      have restActive : ∀ other ∈ rest, other.Active module ∧ other ∈ module.elemSegments :=
        fun other inRest => active other (List.mem_cons_of_mem _ inRest)
      rw [split]
      constructor
      · constructor
        · intro completes
          obtain ⟨after, ran⟩ := completes
          obtain ⟨middle, ranFirst, ranRest⟩ := forM_cons_ok.mp ran
          obtain ⟨cells', isPut⟩ := first.mp ⟨middle, ranFirst⟩
          rw [isPut, Option.bind_some]
          exact (ih (later ranFirst isPut).1 restActive).1.mp ⟨after, ranRest⟩
        · intro puts
          obtain ⟨final, puts⟩ := puts
          obtain ⟨cells', isPut, putsRest⟩ := Option.bind_eq_some_iff.mp puts
          obtain ⟨middle, ranFirst⟩ := first.mpr ⟨cells', isPut⟩
          obtain ⟨after, ranRest⟩ := (ih (later ranFirst isPut).1 restActive).1.mpr ⟨final, putsRest⟩
          exact ⟨after, forM_cons_ok.mpr ⟨middle, ranFirst, ranRest⟩⟩
      · intro after final ran puts
        obtain ⟨middle, ranFirst, ranRest⟩ := forM_cons_ok.mp ran
        obtain ⟨cells', isPut, putsRest⟩ := Option.bind_eq_some_iff.mp puts
        obtain ⟨fillingMiddle, funcs⟩ := later ranFirst isPut
        obtain ⟨fillingAfter, funcsAfter⟩ := (ih fillingMiddle restActive).2 after final ranRest putsRest
        exact ⟨fillingAfter, funcsAfter.trans funcs⟩

end Fill

/-! ## Before the element segments -/

section Start

variable {opts : Options} {arrays : DataArrays} {module : Module} {before after : Context}

/-- Objects stay formed, whatever is done to code. -/
def formedGrading (opts : Options) (module : Module) : Grading Context Unit :=
  .ofPreorder (fun before after => Formed opts module before → Formed opts module after)
    (fun _ formed => formed) fun left right formed => right (left formed)

theorem Forms.formed {α : Type} {emit : Translate α} (forms : Forms opts module before emit) :
    Effect (formedGrading opts module) before emit () :=
  ⟨fun ran formed => (forms.run ran formed).1⟩

theorem visitFuncs_formed (indices functions : List Nat) :
    Effect (formedGrading opts module) before (visitFuncs indices functions) () :=
  visitFuncs_effect indices functions (fun declaration _ _ => (getOrInsertDeclaration_forms declaration).formed)
    fun function code _ => .modify fun formed => formed.setBody function code

theorem beforeTables_formed (opts : Options) (module : Module) :
    Effect (formedGrading opts module) before (beforeTables module) () := by
  have functions : ∀ {middle : Context}, Effect (formedGrading opts module) middle (declareFunctions module) () := by
    intro middle
    unfold declareFunctions
    refine Effect.skip (declareFuncs_forms _).formed fun _ => ?_
    exact Effect.skip (visitTables_form _).formed fun _ => visitFuncs_formed _ _
  unfold beforeTables beforeExports
  refine Effect.skip (Effect.skip declareEntities_forms.formed fun _ => ?_) fun _ => nameFunctions_forms.formed
  exact Effect.skip (visitDataSegments_form _).formed fun _ => functions

/-- Tables have no contents yet: the translation would have come here without any element
segments, too. -/
theorem beforeTables_bare (ran : beforeTables module (Context.start opts arrays module) = .ok ((), before)) (table : Nat) :
    before.tableInitializer table = none := by
  have formed : Formed opts { module with elemSegments := [] } before :=
    Effect.run (beforeTables_formed opts { module with elemSegments := [] }) ran
      ⟨rfl, ⟨rfl, rfl, rfl, rfl⟩, rfl, rfl, nofun, nofun, nofun⟩
  cases contents : before.tableInitializer table with
  | none => rfl
  | some constant =>
      obtain ⟨id, gv, inTables, found, full⟩ := tableInitializer_some contents
      obtain ⟨index, isTable⟩ := formed.tables id (List.mem_of_getElem? inTables)
      obtain ⟨object, isObject, isFor⟩ := formed.object isTable
      rw [Llvm.Module.objects_getElem?, found] at isObject
      cases isObject
      rw [gv.initializer_eq] at full
      generalize gv.object = object at isFor full
      cases isFor with
      | table _ pointers => exact absurd rfl (pointers constant full).1

/-- The cells are empty before the element segments. -/
theorem beforeTables_filling (listed : module.Listed)
    (ran : beforeTables module (Context.start opts arrays module) = .ok ((), before)) :
    Filling opts module (fun _ => none) before := by
  obtain ⟨sound, spaces⟩ := beforeTables_spaces listed ran
  have funcs : before.funcs.map (before.entities[·]?) =
      (List.range module.funcs.length).map fun index => some (.func index) := congrArg Spaces.funcs spaces
  refine ⟨⟨?_, congrArg Spaces.mems spaces, congrArg Spaces.tables spaces⟩, sound.distinct, ?_, ?_,
    beforeTables_bare ran, nofun⟩
  · exact Effect.run (beforeTables_formed opts module) ran (start_formed opts arrays module)
  · refine List.Nodup.of_map (before.entities[·]?) ?_
    rw [funcs]
    refine List.nodup_range.map fun first second same => ?_
    cases same
    rfl
  · simpa using congrArg List.length funcs

/-- All functions are counted, so that the translation ends with the element segments. -/
theorem Formed.fillTables_iff (formed : Formed opts module before) :
    fillTables module before = .ok ((), after) ↔ module.elemSegments.forM visitElem before = .ok ((), after) := by
  have forms : Forms opts module before (module.elemSegments.forM visitElem) :=
    Effect.forM_one fun elem member _ => visitElem_forms (List.ne_nil_of_mem member)
  unfold fillTables
  rw [bind_ok]
  constructor
  · intro ran
    obtain ⟨_, middle, ranSegments, ranCheck⟩ := ran
    have counted := (forms.run ranSegments formed).1.counted
    rw [get_bind_run, if_neg (not_not.mpr counted)] at ranCheck
    cases ranCheck
    exact ranSegments
  · intro ran
    have counted := (forms.run ran formed).1.counted
    refine ⟨(), after, ran, ?_⟩
    rw [get_bind_run, if_neg (not_not.mpr counted)]
    rfl

end Start

/-! ## The image -/

/-- The module is translated, and then every slot of the table has its function. -/
def TableFilled (opts : Options) (arrays : DataArrays) (module : Module) (table : Nat) : Prop :=
  ∃ context, translateModule opts arrays module = .ok context ∧ ∀ slot < module.tableSize table,
    (context.tableInitializer table).bind (slotOf · slot) =
      some ((module.expectedSlot table slot).bind (context.funcs[·]?))

/-- The arrays of all segments are put into cells, and then the cell of the table has all that
the table should have. -/
def CellFilled (opts : Options) (module : Module) (table : Nat) : Prop :=
  ∃ cells, putAll opts.replaceable (fun _ => none) (module.arrays module.elemSegments) = some cells ∧
    ∀ slot < module.tableSize table, (cells table).bind (·[slot]?) = some (module.expectedSlot table slot)

/-- The arrays that the segments of a table give, in order. -/
def Module.arraysFor (module : Module) (table : Nat) : List (List (Option Nat)) :=
  (module.elemSegments.filter (·.table = table)).map (·.array (module.slotCount table))

/-- Segments of different tables give different arrays. -/
def Module.Separate (module : Module) : Prop :=
  ∀ elem ∈ module.elemSegments, ∀ other ∈ module.elemSegments, elem.table ≠ other.table →
    elem.array (module.slotCount elem.table) ≠ other.array (module.slotCount other.table)

/-- No array follows itself, up to the first one that cannot be replaced. -/
def NoneAgain (opts : Options) (module : Module) (table : Nat) : Prop :=
  ((module.arraysFor table).takeWhile opts.replaceable).IsChain (· ≠ ·)

/-- The last segment covers what the others cover, and those could be replaced; or none has
any functions. -/
def LastFills (opts : Options) (module : Module) (table : Nat) : Prop :=
  module.tableSize table ≤ module.slotCount table ∧ ∃ front last,
    module.elemSegments.filter (·.table = table) = front ++ [last] ∧
      ((∀ elem ∈ front ++ [last], elem.elemExprs = []) ∨
        ((opts.constantDataUses = true ∨ ∀ elem ∈ front ++ [last], elem.elemExprs ≠ []) ∧
          ∀ elem ∈ front, Inside elem.piece last.piece))

section Image

variable {opts : Options} {arrays : DataArrays} {module : Module} {before : Context} {table : Nat}

theorem expectedSlot_lt (active : ∀ elem ∈ module.elemSegments, elem.Active module) {slot func : Nat}
    (expected : module.expectedSlot table slot = some func) : func < module.funcs.length := by
  obtain ⟨piece, member, given⟩ := lastPiece_mem expected
  obtain ⟨elem, inTable, rfl⟩ := List.mem_map.mp member
  exact (active elem (List.mem_filter.mp inTable).1).pieceAt_lt given

/-- A slot of the table has its function exactly if the cell has it. -/
theorem Filling.slot_iff {context : Context} {cells : Nat → Option (List (Option Nat))}
    (filled : Filling opts module cells context) (active : ∀ elem ∈ module.elemSegments, elem.Active module)
    (slot : Nat) :
    (context.tableInitializer table).bind (slotOf · slot) =
        some ((module.expectedSlot table slot).bind (context.funcs[·]?)) ↔
      (cells table).bind (·[slot]?) = some (module.expectedSlot table slot) := by
  rw [filled.initializers]
  cases isArray : cells table with
  | none => exact iff_of_false (nomatch ·) (nomatch ·)
  | some array =>
      rw [Option.map_some, Option.bind_some, Option.bind_some, Context.pointers, slotOf_getPointers, List.getElem?_map]
      cases found : array[slot]? with
      | none => exact iff_of_false (nomatch ·) (nomatch ·)
      | some entry =>
          rw [Option.map_some]
          refine ⟨fun same => congrArg some ?_, fun same => by rw [Option.some.inj same]⟩
          refine resolve_inj filled.functions (fun func isFunc => ?_) (Option.some.inj same) fun func isFunc => ?_
          · exact filled.resolves table array isArray func (isFunc ▸ List.mem_of_getElem? found)
          · exact filled.count ▸ expectedSlot_lt active isFunc

/-- Tables share their constants as cells share their values. -/
theorem tableFilled_iff (listed : module.Listed)
    (ran : beforeTables module (Context.start opts arrays module) = .ok ((), before))
    (active : ∀ elem ∈ module.elemSegments, elem.Active module) :
    TableFilled opts arrays module table ↔ CellFilled opts module table := by
  have filling := beforeTables_filling listed ran
  have run := filling.run fun elem member => ⟨active elem member, member⟩
  have completes : ∀ {context}, translateModule opts arrays module = .ok context ↔
      module.elemSegments.forM visitElem before = .ok ((), context) := by
    intro context
    rw [translateModule_tables, ← filling.prepared.formed.fillTables_iff]
    constructor
    · intro ranAll
      obtain ⟨other, ranBefore, ranTables⟩ := ranAll
      cases ran.symm.trans ranBefore
      exact ranTables
    · exact fun ranTables => ⟨before, ran, ranTables⟩
  have slots : ∀ {context cells}, module.elemSegments.forM visitElem before = .ok ((), context) →
      putAll opts.replaceable (fun _ => none) (module.arrays module.elemSegments) = some cells →
        Filling opts module cells context := fun ranSegments puts => (run.2 _ _ ranSegments puts).1
  constructor
  · intro tableFilled
    obtain ⟨context, translated, filled⟩ := tableFilled
    have ranSegments := completes.mp translated
    obtain ⟨cells, puts⟩ := run.1.mp ⟨context, ranSegments⟩
    exact ⟨cells, puts, fun slot covered => ((slots ranSegments puts).slot_iff active slot).mp (filled slot covered)⟩
  · intro cellFilled
    obtain ⟨cells, puts, filled⟩ := cellFilled
    obtain ⟨context, ranSegments⟩ := run.1.mpr ⟨cells, puts⟩
    refine ⟨context, completes.mpr ranSegments, fun slot covered => ?_⟩
    exact ((slots ranSegments puts).slot_iff active slot).mpr (filled slot covered)

theorem valuesFor_arrays : valuesFor (module.arrays module.elemSegments) table = module.arraysFor table := by
  unfold valuesFor Module.arrays Module.arraysFor
  rw [List.filter_map, List.map_map]
  refine List.map_congr_left fun elem member => ?_
  have isTable : elem.table = table := by simpa using (List.mem_filter.mp member).2
  rw [← isTable]
  rfl

/-- A cell of its own is filled exactly if the last array is complete. -/
theorem cellFilled_iff (separate : module.Separate) : CellFilled opts module table ↔
    (∀ other, ∃ final, settleAll opts.replaceable none (module.arraysFor other) = some final) ∧
      ∀ final, settleAll opts.replaceable none (module.arraysFor table) = some final →
        ∀ slot < module.tableSize table, final.bind (·[slot]?) = some (module.expectedSlot table slot) := by
  have apart : Apart (fun _ => none) (module.arrays module.elemSegments) := by
    intro cell other value same differ held heldSame
    cases held with
    | inl held => cases held
    | inr member =>
        cases heldSame with
        | inl held => cases held
        | inr memberSame =>
            obtain ⟨elem, inSegments, isEntry⟩ := List.mem_map.mp member
            obtain ⟨elem', inSegments', isEntry'⟩ := List.mem_map.mp memberSame
            cases isEntry
            cases isEntry'
            exact separate elem inSegments elem' inSegments' differ
  unfold CellFilled
  simp only [putAll_apart apart, valuesFor_arrays]
  constructor
  · intro filled
    obtain ⟨cells, settles, filled⟩ := filled
    refine ⟨fun other => ⟨cells other, settles other⟩, fun final isFinal => ?_⟩
    cases (settles table).symm.trans isFinal
    exact filled
  · intro filled
    obtain ⟨cells, settles⟩ := Classical.skolem.mp filled.1
    exact ⟨cells, settles, filled.2 _ (settles table)⟩

theorem piece_empty_iff {elem : ElemSegment} (active : elem.Active module) : elem.piece.2 = [] ↔ elem.elemExprs = [] := by
  obtain ⟨u, funcs, _, isFuncs, _, piece⟩ := active.piece_eq
  rw [piece, isFuncs, List.map_eq_nil_iff]

/-- Only an empty segment gives a null array. -/
theorem array_any_iff {elem : ElemSegment} {size : Nat} (bound : elem.piece.1 + elem.piece.2.length ≤ size) :
    (elem.array size).any Option.isSome = true ↔ elem.piece.2 ≠ [] := by
  rw [List.any_eq_true]
  constructor
  · intro covered empty
    obtain ⟨entry, member, given⟩ := covered
    obtain ⟨slot, _, isEntry⟩ := List.mem_map.mp member
    rw [← isEntry, pieceAt_empty empty] at given
    cases given
  · intro nonempty
    have length : 0 < elem.piece.2.length := List.length_pos_of_ne_nil nonempty
    refine ⟨pieceAt elem.piece elem.piece.1, List.mem_map.mpr ⟨elem.piece.1, List.mem_range.mpr (by omega), rfl⟩, ?_⟩
    rw [Option.isSome_iff_ne_none, Ne, pieceAt_eq_none_iff]
    omega

/-- An array has what it should where it is long enough. -/
theorem slots_iff {size count : Nat} {given expected : Nat → Option Nat} :
    (∀ slot < size, ((List.range count).map given)[slot]? = some (expected slot)) ↔
      size ≤ count ∧ ∀ slot < size, given slot = expected slot := by
  simp only [List.getElem?_map]
  constructor
  · intro filled
    have fits : size ≤ count := by
      by_contra short
      have outside := filled count (by omega)
      rw [List.getElem?_eq_none (by rw [List.length_range])] at outside
      cases outside
    refine ⟨fits, fun slot covered => ?_⟩
    have entry := filled slot covered
    rw [List.getElem?_range (by omega)] at entry
    exact Option.some.inj entry
  · intro filled slot covered
    rw [List.getElem?_range (by omega), ← filled.2 slot covered]
    rfl

/-- The segments of a table are inside it. -/
def Module.Within (module : Module) (table : Nat) : Prop :=
  ∀ elem ∈ module.elemSegments, elem.table = table → elem.piece.1 + elem.piece.2.length ≤ module.tableSize table

theorem mem_segments {elem : ElemSegment} (member : elem ∈ module.elemSegments.filter (·.table = table)) :
    elem ∈ module.elemSegments ∧ elem.table = table := by
  simpa using List.mem_filter.mp member

/-- The array of a segment can be replaced if the segment has functions. -/
theorem replaceable_iff (opts : Options) {elem : ElemSegment} (active : ∀ elem ∈ module.elemSegments, elem.Active module)
    (within : module.Within table) (fits : module.tableSize table ≤ module.slotCount table)
    (member : elem ∈ module.elemSegments.filter (·.table = table)) :
    opts.replaceable (elem.array (module.slotCount table)) = true ↔
      opts.constantDataUses = true ∨ elem.elemExprs ≠ [] := by
  obtain ⟨inSegments, isTable⟩ := mem_segments member
  have bound := (within elem inSegments isTable).trans fits
  rw [Options.replaceable, Bool.or_eq_true, array_any_iff bound, Ne, piece_empty_iff (active elem inSegments)]

/-- The last array is complete. -/
theorem lastFills_of_replaceable {front : List ElemSegment} {last : ElemSegment}
    (active : ∀ elem ∈ module.elemSegments, elem.Active module) (within : module.Within table)
    (isLast : module.elemSegments.filter (·.table = table) = front ++ [last])
    (used : ∀ array ∈ module.arraysFor table, opts.replaceable array = true) :
    (∀ slot < module.tableSize table,
        (last.array (module.slotCount table))[slot]? = some (module.expectedSlot table slot)) ↔
      LastFills opts module table := by
  have segments : ∀ elem ∈ front, elem ∈ module.elemSegments.filter (·.table = table) :=
    fun elem member => isLast ▸ List.mem_append_left _ member
  have bound : ∀ piece ∈ front.map ElemSegment.piece, piece.1 + piece.2.length ≤ module.tableSize table := by
    intro piece member
    obtain ⟨elem, inFront, rfl⟩ := List.mem_map.mp member
    obtain ⟨inSegments, isTable⟩ := mem_segments (segments elem inFront)
    exact within elem inSegments isTable
  have expected : ∀ slot, module.expectedSlot table slot =
      lastPiece (front.map ElemSegment.piece ++ [last.piece]) slot := by
    intro slot
    rw [Module.expectedSlot, isLast, List.map_append]
    rfl
  rw [ElemSegment.array, slots_iff]
  refine and_congr_right fun fits => ?_
  have covers : (∀ slot < module.tableSize table, pieceAt last.piece slot = module.expectedSlot table slot) ↔
      ∀ elem ∈ front, Inside elem.piece last.piece := by
    have pieces : (∀ elem ∈ front, Inside elem.piece last.piece) ↔
        ∀ piece ∈ front.map ElemSegment.piece, Inside piece last.piece := by
      simp only [List.forall_mem_map]
    rw [pieces, ← lastPiece_eq_pieceAt_iff bound]
    simp only [expected]
    exact forall₂_congr fun slot _ => eq_comm
  rw [covers]
  constructor
  · intro inside
    refine ⟨front, last, isLast, .inr ⟨?_, inside⟩⟩
    refine or_iff_not_imp_left.mpr fun unknown elem member => ?_
    have inTable := isLast ▸ member
    have usedArray := used _ (List.mem_map.mpr ⟨elem, inTable, rfl⟩)
    exact ((replaceable_iff opts active within fits inTable).mp usedArray).resolve_left unknown
  · intro fills
    obtain ⟨front', last', isLast', fills⟩ := fills
    obtain ⟨rfl, same⟩ := List.append_inj' (isLast.symm.trans isLast') rfl
    cases same
    cases fills with
    | inl empty =>
        intro elem member
        refine .inl ((piece_empty_iff (active elem (mem_segments (segments elem member)).1)).mpr ?_)
        exact empty elem (List.mem_append_left _ member)
    | inr covered => exact covered.2

/-- All slots are to be null exactly if no segment has any functions. -/
theorem expectedSlot_none_iff (active : ∀ elem ∈ module.elemSegments, elem.Active module) (within : module.Within table) :
    (∀ slot < module.tableSize table, module.expectedSlot table slot = none) ↔
      ∀ elem ∈ module.elemSegments.filter (·.table = table), elem.elemExprs = [] := by
  simp only [Module.expectedSlot, lastPiece_eq_none_iff, List.forall_mem_map]
  constructor
  · intro nothing elem member
    obtain ⟨inSegments, isTable⟩ := mem_segments member
    by_contra nonempty
    have functions : elem.piece.2 ≠ [] := (piece_empty_iff (active elem inSegments)).not.mpr nonempty
    have length : 0 < elem.piece.2.length := List.length_pos_of_ne_nil functions
    have bound := within elem inSegments isTable
    have uncovered := pieceAt_eq_none_iff.mp (nothing elem.piece.1 (by omega) elem member)
    exact uncovered (by omega)
  · intro empties slot _ elem member
    exact pieceAt_empty ((piece_empty_iff (active elem (mem_segments member).1)).mpr (empties elem member))

/-- A null array is complete where there is nothing else. -/
theorem lastFills_of_null {array : List (Option Nat)}
    (active : ∀ elem ∈ module.elemSegments, elem.Active module) (within : module.Within table)
    (member : array ∈ module.arraysFor table) (unused : opts.replaceable array = false) :
    (∀ slot < module.tableSize table, array[slot]? = some (module.expectedSlot table slot)) ↔
      LastFills opts module table := by
  obtain ⟨elem, inTable, rfl⟩ := List.mem_map.mp member
  rw [ElemSegment.array, slots_iff]
  refine and_congr_right fun fits => ?_
  have bare := (replaceable_iff opts active within fits inTable).not.mp (by rw [unused]; exact Bool.false_ne_true)
  obtain ⟨unknown, empty⟩ := not_or.mp bare
  have emptyPiece : elem.piece.2 = [] :=
    (piece_empty_iff (active elem (mem_segments inTable).1)).mpr (not_not.mp empty)
  have nothing : (∀ slot < module.tableSize table, pieceAt elem.piece slot = module.expectedSlot table slot) ↔
      ∀ other ∈ module.elemSegments.filter (·.table = table), other.elemExprs = [] := by
    simp only [pieceAt_empty emptyPiece, eq_comm (a := none)]
    exact expectedSlot_none_iff active within
  rw [nothing]
  constructor
  · intro empties
    cases List.eq_nil_or_concat' (module.elemSegments.filter (·.table = table)) with
    | inl none_ => exact absurd inTable (none_ ▸ List.not_mem_nil)
    | inr isLast =>
        obtain ⟨front, last, isLast⟩ := isLast
        exact ⟨front, last, isLast, .inl (isLast ▸ empties)⟩
  · intro fills
    obtain ⟨front, last, isLast, fills⟩ := fills
    cases fills with
    | inl empties => exact isLast ▸ empties
    | inr covered =>
        cases covered.1 with
        | inl known => exact absurd known unknown
        | inr full => exact absurd (not_not.mp empty) (full elem (isLast ▸ inTable))

theorem lastFills_iff (nonempty : 0 < module.tableSize table)
    (active : ∀ elem ∈ module.elemSegments, elem.Active module) (within : module.Within table)
    (again : NoneAgain opts module table) :
    (∀ final, settleAll opts.replaceable none (module.arraysFor table) = some final →
      ∀ slot < module.tableSize table, final.bind (·[slot]?) = some (module.expectedSlot table slot)) ↔
        LastFills opts module table := by
  cases List.eq_nil_or_concat' (module.elemSegments.filter (·.table = table)) with
  | inl none_ =>
      have noArrays : module.arraysFor table = [] := by rw [Module.arraysFor, none_]; rfl
      refine iff_of_false (fun filled => ?_) fun fills => ?_
      · rw [noArrays] at filled
        cases filled none rfl 0 nonempty
      · obtain ⟨_, front, last, isLast, _⟩ := fills
        rw [none_] at isLast
        exact absurd isLast.symm (List.append_ne_nil_of_right_ne_nil front (List.cons_ne_nil last []))
  | inr isLast =>
      obtain ⟨front, last, isLast⟩ := isLast
      have isArrays : module.arraysFor table =
          (front.map (·.array (module.slotCount table))) ++ [last.array (module.slotCount table)] := by
        rw [Module.arraysFor, isLast, List.map_append]
        rfl
      have arrays : module.arraysFor table ≠ [] := by
        rw [isArrays]
        exact List.append_ne_nil_of_right_ne_nil _ (List.cons_ne_nil _ _)
      obtain ⟨final, member, settles, replaced⟩ := settleAll_chain again arrays
      have only : (∀ final, settleAll opts.replaceable none (module.arraysFor table) = some final →
          ∀ slot < module.tableSize table, final.bind (·[slot]?) = some (module.expectedSlot table slot)) ↔
          ∀ slot < module.tableSize table, final[slot]? = some (module.expectedSlot table slot) := by
        refine ⟨fun filled => filled _ settles, fun filled other isOther => ?_⟩
        cases settles.symm.trans isOther
        exact filled
      rw [only]
      cases used : opts.replaceable final with
      | false => exact lastFills_of_null active within member used
      | true =>
          obtain ⟨all, isFinal⟩ := replaced used
          rw [isArrays, List.getLast?_concat] at isFinal
          cases isFinal
          exact lastFills_of_replaceable active within isLast all

/-- A table is filled exactly if the cells are. Where segments of different tables give
different arrays: exactly if no array follows itself, and the last segment of the table covers
what the others cover. -/
theorem translateModule_filled_iff (listed : module.Listed)
    (ran : beforeTables module (Context.start opts arrays module) = .ok ((), before))
    (active : ∀ elem ∈ module.elemSegments, elem.Active module) (within : module.Within table) :
    (TableFilled opts arrays module table ↔ CellFilled opts module table) ∧
      (module.Separate → (TableFilled opts arrays module table ↔
        (∀ other, NoneAgain opts module other) ∧ (module.tableSize table = 0 ∨ LastFills opts module table))) := by
  have shared : TableFilled opts arrays module table ↔ CellFilled opts module table := tableFilled_iff listed ran active
  refine ⟨shared, fun separate => ?_⟩
  rw [shared, cellFilled_iff separate]
  simp only [settleAll_isSome_iff]
  refine and_congr_right fun again => ?_
  by_cases empty : module.tableSize table = 0
  · rw [empty]
    exact iff_of_true (fun _ _ slot covered => absurd covered (Nat.not_lt_zero slot)) (.inl rfl)
  · rw [lastFills_iff (Nat.pos_of_ne_zero empty) active within (again table)]
    exact (or_iff_right empty).symm

end Image

/-- `(elem (i32.const offset) func ...)`. -/
def elemFrom (offset : BitVec 32) (funcs : List Nat) : ElemSegment :=
  ⟨.active, 0, .funcRef, [.const (.i32 offset)], funcs.map .refFunc⟩

/-- `(table 2 funcref) (func $f) (func $g)` with these segments. -/
def tableModule (elems : List ElemSegment) : Module where
  name := []
  funcs := [⟨"$f".toList, ⟨[], []⟩, [], []⟩, ⟨"$g".toList, ⟨[], []⟩, [], []⟩]
  globals := []
  tables := [⟨[], .funcRef, ⟨2, none⟩⟩]
  memories := []
  imports := []
  fields := [.func 0, .func 1, .table 0]
  exports := []
  elemSegments := elems

theorem elemFrom_active {elems : List ElemSegment} {offset : BitVec 32} {funcs : List Nat}
    (bound : ∀ func ∈ funcs, func < 2) : (elemFrom offset funcs).Active (tableModule elems) :=
  ⟨rfl, rfl, ⟨offset, rfl⟩, ⟨funcs, rfl, bound⟩, Nat.zero_lt_one⟩

/-- The second segment covers the first one. -/
theorem tableModule_filled :
    TableFilled ⟨false, false, false, false, false, false, false⟩ []
      (tableModule [elemFrom 0 [0], elemFrom 0 [0, 1]]) 0 := by
  obtain ⟨context, translated⟩ : ∃ context, translateModule ⟨false, false, false, false, false, false, false⟩ []
      (tableModule [elemFrom 0 [0], elemFrom 0 [0, 1]]) = .ok context := translateModule_completes (by decide +kernel)
  obtain ⟨before, ran, _⟩ := translateModule_tables.mp translated
  have active : ∀ elem ∈ [elemFrom 0 [0], elemFrom 0 [0, 1]],
      elem.Active (tableModule [elemFrom 0 [0], elemFrom 0 [0, 1]]) := by
    intro elem member
    rcases List.mem_pair.mp member with rfl | rfl
    · exact elemFrom_active (by decide)
    · exact elemFrom_active (by decide)
  have within : (tableModule [elemFrom 0 [0], elemFrom 0 [0, 1]]).Within 0 := by
    intro elem member _
    rcases List.mem_pair.mp member with rfl | rfl <;> decide
  have separate : (tableModule [elemFrom 0 [0], elemFrom 0 [0, 1]]).Separate := by
    intro elem member other memberOther differ
    rcases List.mem_pair.mp member with rfl | rfl <;> rcases List.mem_pair.mp memberOther with rfl | rfl <;>
      exact absurd rfl differ
  refine ((translateModule_filled_iff ⟨rfl, rfl, rfl, rfl⟩ ran active within).2 separate).mpr
    ⟨fun other => ?_, .inr ⟨by decide, [elemFrom 0 [0]], elemFrom 0 [0, 1], rfl, .inr ⟨.inr (by decide), ?_⟩⟩⟩
  · cases other with
    | zero => unfold NoneAgain; decide
    | succ other => exact List.isChain_nil
  · intro elem member
    cases List.mem_singleton.mp member
    exact .inr (by decide)

/-- The second segment takes away what the first one gave. -/
theorem tableModule_lost : (tableModule [elemFrom 0 [0], elemFrom 1 [1]]).Listed ∧
    (tableModule [elemFrom 0 [0], elemFrom 1 [1]]).Within 0 ∧
    (translateModule ⟨false, false, false, false, false, false, false⟩ []
      (tableModule [elemFrom 0 [0], elemFrom 1 [1]])).isOk ∧
    ¬TableFilled ⟨false, false, false, false, false, false, false⟩ []
      (tableModule [elemFrom 0 [0], elemFrom 1 [1]]) 0 := by
  refine ⟨⟨rfl, rfl, rfl, rfl⟩, fun elem member _ => ?_, by decide +kernel, fun filled => ?_⟩
  · rcases List.mem_pair.mp member with rfl | rfl <;> decide
  · obtain ⟨context, translated, slots⟩ := filled
    have null : ((translateModule ⟨false, false, false, false, false, false, false⟩ []
        (tableModule [elemFrom 0 [0], elemFrom 1 [1]])).toOption.map fun context =>
          ((context.tableInitializer 0).bind (slotOf · 0), context.funcs[0]?)) = some (some none, some 0) := by
      decide +kernel
    rw [translated] at null
    obtain ⟨isNull, isFunc⟩ := Prod.mk.inj (Option.some.inj null)
    have given := isNull.symm.trans (slots 0 (by decide))
    have expected : (tableModule [elemFrom 0 [0], elemFrom 1 [1]]).expectedSlot 0 0 = some 0 := by decide
    rw [expected, Option.bind_some, isFunc] at given
    cases given

/-- LLVM 22 does not replace the null array that the empty segment gave. -/
example : (translateModule ⟨false, false, false, false, false, false, false⟩ []
    (tableModule [elemFrom 0 [], elemFrom 0 [0, 1]])).toOption.map (·.tableInitializer 0) =
      some (some (.zero (.array 2 .ptr))) := by decide +kernel

end WasmToLlvm.Modules
