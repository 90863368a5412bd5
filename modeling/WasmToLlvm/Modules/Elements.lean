import Mathlib.Data.List.Forall2
import WasmToLlvm.Modules.IndexSpaces

/-!
# Element segments and the other tables

What visiting an element segment does to the initializers of all tables.
-/

set_option autoImplicit false

namespace WasmToLlvm.Modules

open Llvm Wasm Block Instruction Library

/-- The initializer of the variable of a table. -/
def Context.tableInitializer (context : Context) (index : Nat) : Option Constant :=
  (context.tables[index]?).bind fun id => (context.llvmModule.values[id]?).bind GlobalValue.initializer

/-- The initializer that visiting a segment builds. -/
structure Builds (before : Context) (elem : ElemSegment) (id : Nat) (gv : GlobalValue Body)
    (init : Constant) : Prop where
  inTables : before.tables[elem.table]? = some id
  found : before.llvmModule.values[id]? = some gv
  slots : ∃ offset slots, elemSlots elem before.funcs offset (List.range (arraySize gv.valueType)) before =
      .ok (slots, before) ∧ init = getPointers slots

/-- The state after the initializer of a variable was replaced. -/
inductive Replaces (before : Context) (id : Nat) (gv : GlobalValue Body) (init : Constant) : Context → Prop where
  | set (empty : gv.initializer = none) :
      Replaces before id gv init { before with
        llvmModule := before.llvmModule.update id fun value => value.setInitializer init }
  | everywhere {old : Constant} (full : gv.initializer = some old) (used : before.opts.hasUseList old = true)
      (different : old ≠ init) :
      Replaces before id gv init { before with llvmModule := before.llvmModule.replaceAllUsesWith old init }
  | unused {old : Constant} (full : gv.initializer = some old) (unused : before.opts.hasUseList old = false) :
      Replaces before id gv init before

section Visit

variable {before after : Context} {elem : ElemSegment}

theorem at_ok {α : Type} {values : List α} {index : Nat} {value : α}
    (ran : at_ values index before = .ok (value, after)) : values[index]? = some value ∧ after = before := by
  unfold at_ at ran
  cases found : values[index]? with
  | none => rw [found] at ran; cases ran
  | some element =>
      rw [found] at ran
      cases ran
      exact ⟨rfl, rfl⟩

theorem replaceInitializer_ok {id : Nat} {gv : GlobalValue Body} {init : Constant}
    (found : before.llvmModule.values[id]? = some gv)
    (ran : replaceInitializer id init before = .ok ((), after)) : Replaces before id gv init after := by
  unfold replaceInitializer at ran
  rw [get_bind_run] at ran
  obtain ⟨value, middle, ranAt, ranRest⟩ := bind_ok.mp ran
  obtain ⟨foundValue, same⟩ := at_ok ranAt
  cases same
  cases found.symm.trans foundValue
  cases initializer : gv.initializer with
  | none =>
      rw [initializer] at ranRest
      cases ranRest
      exact .set initializer
  | some old =>
      rw [initializer] at ranRest
      by_cases used : before.opts.hasUseList old = true
      · simp only [if_pos used] at ranRest
        by_cases same : old = init
        · rw [same] at ranRest
          simp only [if_true] at ranRest
          cases ranRest
        · simp only [if_neg same] at ranRest
          cases ranRest
          exact .everywhere initializer used same
      · simp only [if_neg used] at ranRest
        cases ranRest
        exact .unused initializer (Bool.eq_false_iff.mpr used)

/-- The slots are built one by one. -/
theorem elemSlots_ok {funcs : List Nat} {offset : Nat} {places : List Nat} {slots : List (Option Nat)}
    (ran : elemSlots elem funcs offset places before = .ok (slots, after)) :
    List.Forall₂ (fun place slot => elemSlot elem funcs offset place before = .ok (slot, before)) places slots := by
  induction places generalizing slots with
  | nil =>
      cases ran
      exact .nil
  | cons place places ih =>
      obtain ⟨slot, middle, ranSlot, ranRest⟩ := bind_ok.mp ran
      cases elemSlot_reads.same ranSlot
      obtain ⟨rest, middle, ranSlots, ranPure⟩ := bind_ok.mp ranRest
      cases elemSlots_reads.same ranSlots
      cases ranPure
      exact .cons ranSlot (ih ranSlots)

/-- All that visiting a segment can do. -/
theorem visitElem_ok (ran : visitElem elem before = .ok ((), after)) :
    ∃ id gv init, Builds before elem id gv init ∧ Replaces before id gv init after := by
  unfold visitElem at ran
  split at ran
  · cases ran
  · split at ran
    · cases ran
    · obtain ⟨_, middle, ranGet, ran⟩ := bind_ok.mp ran
      cases ranGet
      obtain ⟨id, middle, ranTable, ranRest⟩ := bind_ok.mp ran
      obtain ⟨inTables, same⟩ := at_ok ranTable
      cases same
      obtain ⟨gv, middle, ranValue, ranRest⟩ := bind_ok.mp ranRest
      obtain ⟨found, same⟩ := at_ok ranValue
      cases same
      obtain ⟨constant, middle, ranInit, ranRest⟩ := bind_ok.mp ranRest
      cases visitInitExpr_reads.same ranInit
      obtain ⟨offset, middle, ranOffset, ranRest⟩ := bind_ok.mp ranRest
      cases unwrapIntConstant_reads.same ranOffset
      obtain ⟨slots, middle, ranSlots, ranReplace⟩ := bind_ok.mp ranRest
      cases elemSlots_reads.same ranSlots
      exact ⟨id, gv, getPointers slots, ⟨inTables, found, _, slots, ranSlots, rfl⟩,
        replaceInitializer_ok found ranReplace⟩

end Visit

/-! ## The initializers of the tables -/

section Initializers

variable {before after : Context} {elem : ElemSegment} {id index other : Nat} {gv : GlobalValue Body}
  {init constant : Constant}

theorem initializer_setInitializer (isVariable : gv.isFunction = false) :
    (gv.setInitializer init).initializer = some init := by
  obtain ⟨name, linkage, object⟩ := gv
  cases object with
  | function params result body => cases isVariable
  | «variable» valueType isConstant initializer section_ => rfl

/-- Only variables have initializers. -/
theorem isFunction_of_initializer (full : gv.initializer = some constant) : gv.isFunction = false := by
  obtain ⟨name, linkage, object⟩ := gv
  cases object with
  | function params result body => cases full
  | «variable» valueType isConstant initializer section_ => rfl

theorem tableInitializer_eq (inTables : before.tables[index]? = some id)
    (found : before.llvmModule.values[id]? = some gv) : before.tableInitializer index = gv.initializer := by
  rw [Context.tableInitializer, inTables, Option.bind_some, found, Option.bind_some]

/-- A table with an initializer has a variable. -/
theorem tableInitializer_some (full : before.tableInitializer index = some constant) :
    ∃ id gv, before.tables[index]? = some id ∧ before.llvmModule.values[id]? = some gv ∧
      gv.initializer = some constant := by
  obtain ⟨id, inTables, full⟩ := Option.bind_eq_some_iff.mp full
  obtain ⟨gv, found, full⟩ := Option.bind_eq_some_iff.mp full
  exact ⟨id, gv, inTables, found, full⟩

theorem Replaces.tables (replaces : Replaces before id gv init after) : after.tables = before.tables := by
  cases replaces <;> rfl

theorem Replaces.funcs (replaces : Replaces before id gv init after) : after.funcs = before.funcs := by
  cases replaces <;> rfl

theorem replaceAllUsesWith_getElem? {llvmModule : Llvm.Module Body} {old : Constant}
    (found : llvmModule.values[id]? = some gv) :
    (llvmModule.replaceAllUsesWith old init).values[id]? =
      some (if gv.initializer = some old then gv.setInitializer init else gv) := by
  rw [Llvm.Module.replaceAllUsesWith, List.getElem?_map, found]
  rfl

/-- The variable itself. -/
theorem Replaces.own (replaces : Replaces before id gv init after) (inTables : before.tables[index]? = some id)
    (found : before.llvmModule.values[id]? = some gv) (isVariable : gv.isFunction = false)
    (used : ∀ old, gv.initializer = some old → before.opts.hasUseList old = true) :
    after.tableInitializer index = some init := by
  have isInit : (gv.setInitializer init).initializer = some init := initializer_setInitializer isVariable
  rw [← isInit]
  have inAfter : after.tables[index]? = some id := replaces.tables ▸ inTables
  refine tableInitializer_eq inAfter ?_
  cases replaces with
  | set empty => simp only [Llvm.Module.update, List.getElem?_modify_eq, found]; rfl
  | everywhere full _ different => rw [replaceAllUsesWith_getElem? found, if_pos full]
  | unused full unused => cases (used _ full).symm.trans unused

/-- A variable with the same constant is changed as well. -/
theorem Replaces.shared (replaces : Replaces before id gv init after) (full : gv.initializer = some constant)
    (used : before.opts.hasUseList constant = true) (shares : before.tableInitializer other = some constant) :
    after.tableInitializer other = some init ∧ constant ≠ init := by
  obtain ⟨otherId, otherGv, inTables, found, otherFull⟩ := tableInitializer_some shares
  have inAfter : after.tables[other]? = some otherId := replaces.tables ▸ inTables
  cases replaces with
  | set empty => cases full.symm.trans empty
  | unused fullOld unused =>
      cases full.symm.trans fullOld
      cases used.symm.trans unused
  | everywhere fullOld _ different =>
      cases full.symm.trans fullOld
      refine ⟨(tableInitializer_eq inAfter ((replaceAllUsesWith_getElem? found).trans ?_)).trans
        (initializer_setInitializer (isFunction_of_initializer otherFull)), different⟩
      rw [if_pos otherFull]

/-- Any other variable is left alone. -/
theorem Replaces.apart (replaces : Replaces before id gv init after) (distinct : before.tables.Nodup)
    (inTables : before.tables[index]? = some id) (differs : other ≠ index)
    (apart : ∀ constant, gv.initializer = some constant → before.opts.hasUseList constant = true →
      before.tableInitializer other ≠ some constant) :
    after.tableInitializer other = before.tableInitializer other := by
  unfold Context.tableInitializer
  rw [replaces.tables]
  cases otherTable : before.tables[other]? with
  | none => rfl
  | some otherId =>
      have otherVariable : id ≠ otherId := by
        intro same
        have inside := (List.getElem?_eq_some_iff.mp otherTable).1
        have sameEntry : before.tables[other]? = before.tables[index]? := by rw [otherTable, inTables, same]
        exact differs ((List.getElem?_inj inside distinct).mp sameEntry)
      rw [Option.bind_some, Option.bind_some]
      cases replaces with
      | set empty => rw [Llvm.Module.update, List.getElem?_modify_ne _ _ otherVariable]
      | unused full unused => rfl
      | everywhere full used different =>
          cases found : before.llvmModule.values[otherId]? with
          | none => rw [Llvm.Module.replaceAllUsesWith, List.getElem?_map, found]; rfl
          | some otherGv =>
              have notShared := apart _ full used
              rw [tableInitializer_eq otherTable found] at notShared
              rw [replaceAllUsesWith_getElem? found, if_neg notShared]

end Initializers

/-! ## Other tables -/

/-- The call leaves the initializers of the other tables as they were. -/
def LeavesOthers (before : Context) (elem : ElemSegment) : Prop :=
  ∀ after, visitElem elem before = .ok ((), after) → ∀ other, other ≠ elem.table →
    after.tableInitializer other = before.tableInitializer other

/-- No other table has the constant that initializes the table of the segment, if LLVM knows
where it is used. -/
def Unshared (before : Context) (elem : ElemSegment) : Prop :=
  ∀ other, other ≠ elem.table → ∀ constant, before.tableInitializer elem.table = some constant →
    before.opts.hasUseList constant = true → before.tableInitializer other ≠ some constant

theorem visitElem_leavesOthers_iff {before after : Context} {elem : ElemSegment} (distinct : before.tables.Nodup)
    (ran : visitElem elem before = .ok ((), after)) : LeavesOthers before elem ↔ Unshared before elem := by
  obtain ⟨id, gv, init, builds, replaces⟩ := visitElem_ok ran
  have own : before.tableInitializer elem.table = gv.initializer :=
    tableInitializer_eq builds.inTables builds.found
  unfold LeavesOthers Unshared
  constructor
  · intro leaves other differs constant full used shares
    obtain ⟨changed, different⟩ := replaces.shared (own.symm.trans full) used shares
    have kept := leaves after ran other differs
    rw [changed, shares] at kept
    exact different (Option.some.inj kept).symm
  · intro unshared after' ran' other differs
    cases ran.symm.trans ran'
    refine replaces.apart distinct builds.inTables differs fun constant full => ?_
    exact unshared other differs constant (own.trans full)

/-- In a run over element segments every call leaves the other tables alone exactly when no
call finds the constant of its table in another one. -/
theorem visitElems_leaveOthers_iff {before after : Context} {elems : List ElemSegment} (sound : Sound before)
    (ran : elems.forM visitElem before = .ok ((), after)) :
    EachRound visitElem LeavesOthers elems before ↔ EachRound visitElem Unshared elems before := by
  have keeps : ∀ {before after : Context} {elem : ElemSegment}, Sound before →
      visitElem elem before = .ok ((), after) → Sound after :=
    fun sound ran => ((visitElem_adds _).run ran sound).1
  exact EachRound.congr (fun _ => keeps) (fun _ sound ran => visitElem_leavesOthers_iff sound.distinct ran)
    sound ran

/-- Two functions and two tables of one slot, before element segments are visited. -/
def twoTables : Context :=
  ⟨⟨false, false, false, false, false, false, false⟩, ⟨[], [], [], [], [], [], [], [], []⟩,
    ⟨[⟨"f".toList, .internal, .function [] .void none⟩, ⟨"g".toList, .internal, .function [] .void none⟩,
      ⟨"table_0".toList, .external, .variable (.array 1 .ptr) false none none⟩,
      ⟨"table_1".toList, .external, .variable (.array 1 .ptr) false none none⟩], 0⟩,
    [], [], [0, 1], [], [2, 3], 0, 2, 0, 2, [.func 0, .func 1, .table 0, .table 1]⟩

theorem twoTables_sound : Sound twoTables where
  created := rfl
  held := by decide
  distinct := by decide

/-- `(elem (table index) (i32.const 0) func func)`. -/
def oneElem (index func : Nat) : ElemSegment :=
  ⟨.active, index, .funcRef, [.const (.i32 0)], [.refFunc func]⟩

theorem visitElems_leaveOthers_iff_apart :
    EachRound visitElem LeavesOthers [oneElem 0 0, oneElem 1 1] twoTables ↔
      EachRound visitElem Unshared [oneElem 0 0, oneElem 1 1] twoTables :=
  visitElems_leaveOthers_iff twoTables_sound rfl

/-- The tables are filled alike; then the new element of the first one is written to both. -/
theorem oneElem_shared : Sound twoTables ∧
    ¬EachRound visitElem LeavesOthers [oneElem 0 0, oneElem 1 0, oneElem 0 1] twoTables := by
  refine ⟨twoTables_sound, fun rounds => ?_⟩
  have last := ((rounds.2 _ rfl).2 _ rfl).1 _ rfl 1 (by decide)
  cases last

end WasmToLlvm.Modules
