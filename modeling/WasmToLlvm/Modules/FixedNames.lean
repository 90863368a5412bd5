import WasmToLlvm.Modules.ExportNames
import WasmToLlvm.Modules.IndexSpaces

/-!
# `FixNames`

What keeps the names `memset` and `memcpy` from the functions of a module, and where a
function gets one of them back.
-/

set_option autoImplicit false

namespace WasmToLlvm.Modules

open Llvm Wasm Block Instruction Library

/-- The names of the functions that intrinsics are lowered to. -/
def Reserved (name : Name) : Prop :=
  name = "memset".toList ∨ name = "memcpy".toList

theorem Reserved.no_dot {name : Name} (reserved : Reserved name) : '.' ∉ name := by
  cases reserved with
  | inl memset => rw [memset]; decide
  | inr memcpy => rw [memcpy]; decide

/-- A change of one function, after which others may have lost their names. -/
structure RenamesOne (function : Nat) (before after : Llvm.Module Body) : Prop where
  renames : Renames before after
  others : ∀ other, other ≠ function → functionName after other = functionName before other ∨
    functionName after other = []

section Functions

variable {before middle after : Llvm.Module Body} {function : Nat} {name new : Name}

theorem RenamesOne.refl : RenamesOne function before before := ⟨.refl, fun _ _ => .inl rfl⟩

theorem RenamesOne.trans (left : RenamesOne function before middle) (right : RenamesOne function middle after) :
    RenamesOne function before after := by
  refine ⟨left.renames.trans right.renames, fun other apart => ?_⟩
  cases right.others other apart with
  | inl kept => exact kept ▸ left.others other apart
  | inr lost => exact .inr lost

theorem RenamesOne.setName : RenamesOne function before (before.setName function name) :=
  ⟨.setName, fun _ apart => .inl (functionName_congr (setName_other apart))⟩

theorem RenamesOne.setLinkage {linkage : Linkage} : RenamesOne function before (before.setLinkage function linkage) :=
  ⟨.setLinkage, fun _ _ => .inl setLinkage_name⟩

theorem RenamesOne.clearName (distinct : Distinct before) (named : name ≠ []) :
    RenamesOne function before (clearName name before) := by
  refine ⟨.clearName, fun other _ => ?_⟩
  by_cases has : functionName before other = name ∧ isFunctionAt before other
  · refine .inr ?_
    rw [functionName_eq, clearName_self distinct named has.1 has.2]
    cases symbolAt before other <;> rfl
  · exact .inl (functionName_congr (clearName_other distinct named fun same isFunction => has ⟨same, isFunction⟩))

theorem RenamesOne.renameMain (distinct : Distinct before) : RenamesOne function before (renameMain function before) := by
  unfold Modules.renameMain
  split
  · have linked : RenamesOne function before (before.setLinkage function .external) := .setLinkage
    refine (linked.trans (.clearName (linked.renames distinct).1 ?_)).trans .setName
    exact List.cons_ne_nil _ _
  · exact .refl

theorem RenamesOne.renameFunction : RenamesOne function before (renameFunction function name new before) := by
  unfold Modules.renameFunction
  split
  · exact .setName
  · exact .refl

/-- A function does not have the name that it is renamed from, nor one that it did not have
before. -/
theorem renameFunction_avoids {avoided : Name} (distinct : Distinct before) (isFunction : isFunctionAt before function)
    (noDot : '.' ∉ avoided) (differs : new ≠ avoided) (avoids : functionName before function = avoided → name = avoided) :
    functionName (renameFunction function name new before) function ≠ avoided := by
  unfold Modules.renameFunction
  intro same
  split at same
  · have chosen := setName_chosen new distinct isFunction
    exact differs ((chosen.of_no_dot (same ▸ noDot)).symm.trans same)
  · rename_i other
    exact other (same.trans (avoids same).symm)

/-- Functions that are called `memset` or `memcpy` are renamed. -/
theorem renameReserved_avoids (distinct : Distinct before) (isFunction : isFunctionAt before function) :
    ¬Reserved (functionName (renameFunction function "memcpy".toList "memcpy_1".toList
      (renameFunction function "memset".toList "memset_1".toList before)) function) := by
  obtain ⟨distinctMiddle, kinds⟩ := Renames.renameFunction function "memset".toList "memset_1".toList distinct
  have isFunctionMiddle := (kinds function).mpr isFunction
  have notSet : functionName (renameFunction function "memset".toList "memset_1".toList before) function ≠
      "memset".toList := renameFunction_avoids distinct isFunction (by decide) (by decide) fun _ => rfl
  intro reserved
  cases reserved with
  | inl isSet =>
      refine renameFunction_avoids distinctMiddle isFunctionMiddle ?_ ?_ (fun same => absurd same notSet) isSet
      · decide
      · decide
  | inr isCopy =>
      refine renameFunction_avoids distinctMiddle isFunctionMiddle ?_ ?_ (fun _ => rfl) isCopy
      · decide
      · decide

end Functions

/-! ## Declarations -/

section Declarations

variable {before after : Context} {function : Nat}

/-- Only a dollar sign is removed. -/
theorem removeDollarName_stays {first : Char} {rest : Name}
    (name : functionName before.llvmModule function = first :: rest) (other : first ≠ '$') :
    removeDollarName function before = .ok ((), before) := by
  unfold removeDollarName
  rw [get_bind_run, name]
  refine congrFun (g := (pure () : Translate Unit)) ?_ before
  split
  · rename_i empty
    cases empty
  · rename_i same
    exact absurd (List.cons.inj same).1 other
  · rfl

theorem removeDollarName_ok (named : functionName before.llvmModule function ≠ []) :
    ∃ llvmModule, removeDollarName function before = .ok ((), { before with llvmModule }) ∧
      RenamesOne function before.llvmModule llvmModule := by
  cases name : functionName before.llvmModule function with
  | nil => exact absurd name named
  | cons first rest =>
      by_cases dollar : first = '$'
      · unfold removeDollarName
        rw [get_bind_run, name, dollar]
        exact ⟨_, rfl, .setName⟩
      · exact ⟨before.llvmModule, removeDollarName_stays name dollar, .refl⟩

/-- There is no first character to read. -/
theorem removeDollarName_stops (nameless : functionName before.llvmModule function = []) :
    removeDollarName function before = .error (.abort .assertion) := by
  unfold removeDollarName
  rw [get_bind_run, nameless]
  rfl

/-- The names of a function are fixed unless it has none. -/
theorem fixNames_completes (fix : before.opts.fixNames = true) (named : Named before)
    (isFunction : isFunctionAt before.llvmModule function)
    (readable : before.opts.noRemoveDollar = true ∨ functionName before.llvmModule function ≠ []) :
    ∃ llvmModule, fixNames function before = .ok ((), { before with llvmModule }) ∧
      RenamesOne function before.llvmModule llvmModule ∧ ¬Reserved (functionName llvmModule function) := by
  -- the first step leaves a state from which the others are completed
  have rest : ∀ middle, RenamesOne function before.llvmModule middle →
      RenamesOne function before.llvmModule (renameFunction function "memcpy".toList "memcpy_1".toList
        (renameFunction function "memset".toList "memset_1".toList (renameMain function middle))) ∧
      ¬Reserved (functionName (renameFunction function "memcpy".toList "memcpy_1".toList
        (renameFunction function "memset".toList "memset_1".toList (renameMain function middle))) function) := by
    intro middle renames
    obtain ⟨distinct, _⟩ := renames.renames named.distinct
    have main := renames.trans (.renameMain distinct)
    obtain ⟨distinctMain, kinds⟩ := main.renames named.distinct
    exact ⟨(main.trans .renameFunction).trans .renameFunction,
      renameReserved_avoids distinctMain ((kinds function).mpr isFunction)⟩
  unfold fixNames
  rw [get_bind_run, if_pos fix]
  cases noRemoveDollar : before.opts.noRemoveDollar with
  | true => exact ⟨_, rfl, rest before.llvmModule .refl⟩
  | false =>
      rw [noRemoveDollar] at readable
      obtain ⟨middle, ran, renames⟩ := removeDollarName_ok (readable.resolve_left Bool.false_ne_true)
      refine ⟨_, ?_, rest middle renames⟩
      show (removeDollarName function >>= fun _ => _) before = _
      rw [bind_run_ok ran]
      rfl

theorem fixNames_stops (fix : before.opts.fixNames = true) (removes : before.opts.noRemoveDollar = false)
    (nameless : functionName before.llvmModule function = []) :
    fixNames function before = .error (.abort .assertion) := by
  unfold fixNames
  rw [get_bind_run, if_pos fix, removes]
  exact bind_run_error (removeDollarName_stops nameless)

end Declarations

/-- Whether the function's type is one of LLVM. -/
def Convertible (sig : FuncSignature) : Prop :=
  (∀ type ∈ sig.params, (convertType? type).isSome) ∧ sig.results.length ≤ 1 ∧
    ∀ type ∈ sig.results, (convertType? type).isSome

instance (sig : FuncSignature) : Decidable (Convertible sig) :=
  inferInstanceAs (Decidable (_ ∧ _ ∧ _))

/-- When a computation is completed; it does not stop at an assertion. -/
structure Possible {α : Type} (before : Context) (emit : Translate α) (possible : Prop) : Prop where
  completes : possible → ∃ value after, emit before = .ok (value, after)
  stops : ¬possible → ∃ failure, emit before = .error failure ∧ failure ≠ .abort .assertion

section Possible

variable {α β : Type} {before : Context} {emit : Translate α} {next : α → Translate β} {possible possible' : Prop}

theorem Possible.pure {value : α} : Possible before (pure value) True :=
  ⟨fun _ => ⟨value, before, rfl⟩, fun impossible => absurd trivial impossible⟩

theorem Possible.congr (emits : Possible before emit possible) (same : possible ↔ possible') :
    Possible before emit possible' :=
  ⟨fun holds => emits.completes (same.mpr holds), fun fails => emits.stops fun holds => fails (same.mp holds)⟩

/-- What is done after a completed part. -/
theorem Possible.after {value : α} {middle : Context} (ran : emit before = .ok (value, middle))
    (rest : Possible middle (next value) possible) : Possible before (emit >>= next) possible := by
  refine ⟨fun holds => ?_, fun fails => ?_⟩
  · rw [bind_run_ok ran]
    exact rest.completes holds
  · rw [bind_run_ok ran]
    exact rest.stops fails

theorem Possible.bind (first : Possible before emit possible)
    (rest : ∀ value middle, emit before = .ok (value, middle) → Possible middle (next value) possible') :
    Possible before (emit >>= next) (possible ∧ possible') := by
  by_cases holds : possible
  · obtain ⟨value, middle, ran⟩ := first.completes holds
    exact (Possible.after ran (rest value middle ran)).congr (and_iff_right holds).symm
  · obtain ⟨failure, ran, other⟩ := first.stops holds
    exact ⟨fun both => absurd both.1 holds, fun _ => ⟨failure, bind_run_error ran, other⟩⟩

theorem Possible.get {next : Context → Translate α} (rest : Possible before (next before) possible) :
    Possible before (get >>= next) possible :=
  ⟨rest.completes, rest.stops⟩

theorem convertType_possible (type : ValType) : Possible before (convertType type) (convertType? type).isSome := by
  unfold convertType
  cases convertType? type with
  | none => exact ⟨nofun, fun _ => ⟨_, rfl, nofun⟩⟩
  | some converted => exact ⟨fun _ => ⟨converted, before, rfl⟩, fun impossible => absurd rfl impossible⟩

theorem convertTypes_possible (types : List ValType) :
    Possible before (convertTypes types) (∀ type ∈ types, (convertType? type).isSome) := by
  induction types generalizing before with
  | nil => exact Possible.pure.congr (iff_of_true trivial nofun)
  | cons type types ih =>
      unfold convertTypes
      refine ((convertType_possible type).bind fun _ _ _ => ih.bind fun _ _ _ => .pure).congr ?_
      rw [and_true, List.forall_mem_cons]

theorem convertFuncType_possible (sig : FuncSignature) : Possible before (convertFuncType sig) (Convertible sig) := by
  unfold convertFuncType Convertible
  refine (convertTypes_possible sig.params).bind fun _ _ _ => ?_
  cases sig.results with
  | nil => exact Possible.pure.congr (iff_of_true trivial ⟨Nat.zero_le _, nofun⟩)
  | cons type types =>
      cases types with
      | nil =>
          refine ((convertType_possible type).bind fun _ _ _ => .pure).congr ?_
          rw [and_true, List.forall_mem_singleton]
          exact (and_iff_right (Nat.le_refl 1)).symm
      | cons type' types =>
          exact ⟨fun both => absurd both.1 (Nat.not_le.mpr (Nat.succ_lt_succ (Nat.succ_pos _))), fun _ => ⟨_, rfl, nofun⟩⟩

/-- A function is declared if its type is one of LLVM. -/
theorem declareFunc_possible (index : Nat) (isExternal : Bool) : Possible before (declareFunc index isExternal)
    (∃ func, before.module.funcs[index]? = some func ∧ Convertible func.func.decl) := by
  unfold declareFunc
  refine .get ?_
  cases found : before.module.funcs[index]? with
  | none =>
      refine ⟨nofun, fun _ => ⟨.abort .outOfRange, bind_run_error ?_, nofun⟩⟩
      rw [at_, found]
      rfl
  | some func =>
      have ran : at_ before.module.funcs index before = .ok (func, before) := by
        rw [at_, found]
        rfl
      have rest : ∀ (pair : List Ty × Ty) (middle : Context), Possible middle (do
          let function ← createGlobalValue (.func index) (objectName before.opts func.name) (linkageOf isExternal)
            (.function pair.1 pair.2 none)
          modify fun context => { context with funcs := context.funcs ++ [function], funcIndex := context.funcIndex + 1 }
          return function) True :=
        fun _ _ => ⟨fun _ => ⟨_, _, rfl⟩, fun impossible => absurd trivial impossible⟩
      refine (Possible.after ran ((convertFuncType_possible func.func.decl).bind fun pair middle _ => rest pair middle)).congr ?_
      rw [and_true]
      constructor
      · intro convertible
        exact ⟨func, rfl, convertible⟩
      · intro found
        obtain ⟨other, same, convertible⟩ := found
        cases same
        exact convertible

end Possible

/-- Functions are declared in order, up to the first whose type is not one of LLVM. -/
def declaredFuncs (funcs : List ModuleFunc) (indices : List Nat) : List (Option ModuleFunc) :=
  (indices.map (funcs[·]?)).takeWhile (·.any fun func => Convertible func.func.decl)

/-- Every name has a first character where one is read. -/
def Readable (opts : Options) (funcs : List ModuleFunc) (indices : List Nat) : Prop :=
  opts.noRemoveDollar = true ∨
    ∀ func : ModuleFunc, some func ∈ declaredFuncs funcs indices → objectName opts func.name ≠ []

/-- Functions were declared whose names are not reserved. -/
structure DeclaresFixed (before : Context) (functions : List Nat) (after : Context) : Prop where
  funcs : after.funcs = before.funcs ++ functions
  kinds : ∀ id, isFunctionAt before.llvmModule id → isFunctionAt after.llvmModule id
  others : ∀ id, isFunctionAt before.llvmModule id →
    functionName after.llvmModule id = functionName before.llvmModule id ∨ functionName after.llvmModule id = []
  fixed : ∀ id ∈ functions, ¬Reserved (functionName after.llvmModule id)

section Functions

variable {before after : Context} {functions indices : List Nat}

theorem not_reserved_nil : ¬Reserved [] := by
  intro reserved
  cases reserved with
  | inl same => exact List.cons_ne_nil _ _ same.symm
  | inr same => exact List.cons_ne_nil _ _ same.symm

/-- A function that is declared and whose name is fixed. -/
structure DeclaresOne (before : Context) (id : Nat) (middle : Context) : Prop where
  named : Named middle
  opts : middle.opts = before.opts
  module : middle.module = before.module
  declares : DeclaresFixed before [id] middle

theorem DeclaresFunction.fixes {index id : Nat} {first : Context} (fix : before.opts.fixNames = true)
    (declared : DeclaresFunction before index false id first)
    (readable : first.opts.noRemoveDollar = true ∨ functionName first.llvmModule id ≠ []) :
    ∃ middle, fixNames id first = .ok ((), middle) ∧ DeclaresOne before id middle := by
  have isFunction : isFunctionAt first.llvmModule id := by
    obtain ⟨func, unique, _, symbol, _⟩ := declared.symbol
    rw [isFunctionAt, symbol]
    rfl
  obtain ⟨llvmModule, ran, renames, fixed⟩ :=
    fixNames_completes (declared.opts ▸ fix) declared.named isFunction readable
  obtain ⟨distinct, kinds⟩ := renames.renames declared.named.distinct
  refine ⟨_, ran, ⟨⟨distinct, fun other member => (kinds other).mpr (declared.named.functions other member),
    declared.named.nodup⟩, declared.opts, declared.module, ⟨declared.funcs, fun other isOther => (kinds other).mpr ?_,
      fun other isOther => ?_, fun other member => ?_⟩⟩⟩
  · obtain ⟨symbol, isSymbol, isFunction⟩ := Option.map_eq_some_iff.mp isOther
    rw [isFunctionAt, declared.older other symbol isSymbol, Option.map_some, isFunction]
  · obtain ⟨symbol, isSymbol, _⟩ := Option.map_eq_some_iff.mp isOther
    have apart : other ≠ id := by
      intro same
      rw [same, declared.fresh] at isSymbol
      cases isSymbol
    rw [← functionName_congr ((declared.older other symbol isSymbol).trans isSymbol.symm)]
    exact renames.others other apart
  · cases List.mem_singleton.mp member
    exact fixed

/-- Only functions that have a name are fixed. -/
theorem declareOne_ok {index id : Nat} {first middle : Context} (fix : before.opts.fixNames = true)
    (declared : DeclaresFunction before index false id first) (ran : fixNames id first = .ok ((), middle)) :
    DeclaresOne before id middle := by
  have readable : first.opts.noRemoveDollar = true ∨ functionName first.llvmModule id ≠ [] := by
    rw [← Bool.not_eq_false, ← not_and_or]
    intro stops
    rw [fixNames_stops (declared.opts ▸ fix) stops.1 stops.2] at ran
    cases ran
  obtain ⟨other, ranOther, declares⟩ := declared.fixes fix readable
  cases ran.symm.trans ranOther
  exact declares

theorem declareFuncs_fixed (fix : before.opts.fixNames = true) (named : Named before)
    (ran : declareFuncs indices before = .ok (functions, after)) : DeclaresFixed before functions after := by
  induction indices generalizing before functions with
  | nil =>
      cases ran
      exact ⟨(List.append_nil _).symm, fun _ isFunction => isFunction, fun _ _ => .inl rfl, nofun⟩
  | cons index indices ih =>
      obtain ⟨id, first, ranDeclare, ran⟩ := bind_ok.mp ran
      obtain ⟨_, middle, ranFix, ran⟩ := bind_ok.mp ran
      obtain ⟨rest, last, ranRest, ran⟩ := bind_ok.mp ran
      cases ran
      have one := declareOne_ok fix (declareFunc_ok named ranDeclare) ranFix
      have others := ih (one.opts ▸ fix) one.named ranRest
      have isFunction : isFunctionAt middle.llvmModule id := by
        refine one.named.functions id ?_
        rw [one.declares.funcs]
        exact List.mem_append_right _ (List.mem_singleton_self id)
      refine ⟨?_, fun other isOther => others.kinds other (one.declares.kinds other isOther), fun other isOther => ?_,
        fun other member => ?_⟩
      · rw [others.funcs, one.declares.funcs, List.append_assoc]
        rfl
      · cases others.others other (one.declares.kinds other isOther) with
        | inl kept => exact kept ▸ one.declares.others other isOther
        | inr lost => exact .inr lost
      · cases member with
        | head =>
            cases others.others id isFunction with
            | inl kept => exact kept ▸ one.declares.fixed id (List.mem_singleton_self id)
            | inr lost => exact lost ▸ not_reserved_nil
        | tail _ member => exact others.fixed other member

theorem declaredFuncs_cons {funcs : List ModuleFunc} {index : Nat} {func : ModuleFunc}
    (found : funcs[index]? = some func) (convertible : Convertible func.func.decl) :
    declaredFuncs funcs (index :: indices) = some func :: declaredFuncs funcs indices := by
  unfold declaredFuncs
  rw [List.map_cons, found]
  exact List.takeWhile_cons_of_pos (decide_eq_true convertible)

theorem declaredFuncs_stops {funcs : List ModuleFunc} {index : Nat}
    (stops : ¬∃ func, funcs[index]? = some func ∧ Convertible func.func.decl) :
    declaredFuncs funcs (index :: indices) = [] := by
  unfold declaredFuncs
  rw [List.map_cons, List.takeWhile_cons_of_neg ?_]
  intro convertible
  obtain ⟨func, found, convertible⟩ := (Option.any_eq_true _ _).mp convertible
  exact stops ⟨func, found, of_decide_eq_true convertible⟩

theorem readable_none {opts : Options} : opts.noRemoveDollar = true ∨
    ∀ func : ModuleFunc, some func ∈ ([] : List (Option ModuleFunc)) → objectName opts func.name ≠ [] :=
  .inr fun _ member => absurd member List.not_mem_nil

theorem readable_cons {opts : Options} {funcs : List ModuleFunc} {index : Nat} {func : ModuleFunc}
    (found : funcs[index]? = some func) (convertible : Convertible func.func.decl) :
    Readable opts funcs (index :: indices) ↔
      (opts.noRemoveDollar = true ∨ objectName opts func.name ≠ []) ∧ Readable opts funcs indices := by
  unfold Readable
  rw [declaredFuncs_cons found convertible, ← or_and_left]
  refine or_congr_right ?_
  constructor
  · intro all
    exact ⟨all func List.mem_cons_self, fun other member => all other (List.mem_cons_of_mem _ member)⟩
  · intro both other member
    cases member with
    | head => exact both.1
    | tail _ member => exact both.2 other member

/-- The first character of an empty name is read exactly when some function that is declared
has no name and `$` is removed. -/
theorem declareFuncs_reads_iff (fix : before.opts.fixNames = true) (named : Named before) :
    declareFuncs indices before ≠ .error (.abort .assertion) ↔ Readable before.opts before.module.funcs indices := by
  induction indices generalizing before with
  | nil =>
      refine iff_of_true (fun stops => ?_) readable_none
      cases stops
  | cons index indices ih =>
      have possible : Possible before (declareFunc index false) _ := declareFunc_possible index false
      unfold declareFuncs
      by_cases convertible : ∃ func, before.module.funcs[index]? = some func ∧ Convertible func.func.decl
      · obtain ⟨id, first, ran⟩ := possible.completes convertible
        obtain ⟨func, found, convertible⟩ := convertible
        have declared := declareFunc_ok named ran
        have hasName : functionName first.llvmModule id ≠ [] ↔ objectName before.opts func.name ≠ [] := by
          obtain ⟨func', unique, found', symbol, isEmpty⟩ := declared.symbol
          cases found.symm.trans found'
          rw [functionName_eq, symbol]
          exact not_congr isEmpty
        rw [readable_cons found convertible, bind_run_ok ran, ← hasName]
        by_cases readable : before.opts.noRemoveDollar = true ∨ functionName first.llvmModule id ≠ []
        · obtain ⟨middle, ranFix, one⟩ := declared.fixes fix (declared.opts.symm ▸ readable)
          rw [bind_run_ok ranFix, and_iff_right readable, ← one.opts, ← one.module, ← ih (one.opts ▸ fix) one.named]
          refine not_congr ?_
          cases ranRest : declareFuncs indices middle with
          | error failure => rw [bind_run_error ranRest]
          | ok result =>
              rw [bind_run_ok ranRest]
              refine iff_of_false (fun stops => ?_) (fun stops => ?_)
              · cases stops
              · cases stops
        · have stops : first.opts.noRemoveDollar = false ∧ functionName first.llvmModule id = [] := by
            rw [declared.opts, ← Bool.not_eq_true, ← not_ne_iff (a := functionName first.llvmModule id), ← not_or]
            exact readable
          rw [bind_run_error (fixNames_stops (declared.opts ▸ fix) stops.1 stops.2)]
          exact iff_of_false (fun fails => fails rfl) fun both => readable both.1
      · obtain ⟨failure, ran, other⟩ := possible.stops convertible
        rw [bind_run_error ran, Readable, declaredFuncs_stops convertible]
        exact iff_of_true (fun same => other (Except.error.inj same)) readable_none

end Functions

/-! ## The state before the exports -/

section Before

variable {opts : Options} {arrays : DataArrays} {module : Module} {declared filled before : Context}

/-- The functions that are defined come behind those that are imported. -/
theorem Module.Listed.le_of_defined {index : Nat} (listed : module.Listed) (member : index ∈ module.definedFuncs) :
    (module.imported .func).length ≤ index := by
  obtain ⟨place, inside, found⟩ := List.getElem_of_mem member
  have whole : (module.imported .func ++ module.definedFuncs)[(module.imported .func).length + place]? = some index := by
    rw [List.getElem?_append_right (Nat.le_add_right _ _), Nat.add_sub_cancel_left, List.getElem?_eq_getElem inside,
      found]
  rw [listed.funcs] at whole
  obtain ⟨_, same⟩ := List.getElem?_eq_some_iff.mp whole
  rw [List.getElem_range] at same
  exact same ▸ Nat.le_add_right _ _

theorem declareEntities_funcs (ran : declareEntities module (Context.start opts arrays module) = .ok ((), declared)) :
    declared.funcs.length = (module.imported .func).length := by
  have sound : Sound (Context.start opts arrays module) := ⟨rfl, nofun, List.nodup_nil⟩
  have spaces := congrArg (fun spaces => spaces.funcs.length) ((declareEntities_adds module).run ran sound).2
  simpa [Context.start, Context.spaces, Spaces.ofImports, Spaces.ofGlobals, Spaces.ofMemories] using spaces

/-- The functions of the module whose names are fixed. -/
theorem beforeExports_fixed (listed : module.Listed) (fix : opts.fixNames = true)
    (ran : beforeExports module (Context.start opts arrays module) = .ok ((), before)) {index id : Nat}
    (member : index ∈ module.definedFuncs) (found : before.funcs[index]? = some id) :
    ¬Reserved (functionName before.llvmModule id) := by
  obtain ⟨_, declared, ranDeclare, ran⟩ := bind_ok.mp ran
  obtain ⟨_, filled, ranFill, ran⟩ := bind_ok.mp ran
  obtain ⟨functions, last, ranFuncs, ran⟩ := bind_ok.mp ran
  obtain ⟨_, tables, ranTables, ranBodies⟩ := bind_ok.mp ran
  have remains := (declareEntities_named module).run ranDeclare (start_named opts arrays module)
  obtain ⟨named, steadyFill⟩ := (visitDataSegments_leave _).run ranFill remains.named
  have isFix : filled.opts.fixNames = true := by
    rw [steadyFill.opts, remains.opts]
    exact fix
  have declares := declareFuncs_fixed isFix named ranFuncs
  have declaredAll : KeepsNamed module filled (declareFuncs module.definedFuncs) := declareFuncs_named module.definedFuncs
  have namedLast := (declaredAll.run ranFuncs named).named
  obtain ⟨namedTables, steadyTables⟩ := (visitTables_leave _).run ranTables namedLast
  obtain ⟨_, dotsBodies⟩ := (visitFuncs_dots _ _).run ranBodies namedTables
  have dots := steadyTables.dots.trans dotsBodies
  rw [dots.funcs] at found
  have isFunction : isFunctionAt last.llvmModule id := namedLast.functions id (List.mem_of_getElem? found)
  have fixed : ¬Reserved (functionName last.llvmModule id) → ¬Reserved (functionName before.llvmModule id) := by
    intro free
    cases dots.name isFunction with
    | inl same => exact same.symm ▸ free
    | inr dot => exact fun reserved => reserved.no_dot dot
  refine fixed (declares.fixed id ?_)
  rw [declares.funcs, steadyFill.funcs, List.getElem?_append_right ?_] at found
  · exact List.mem_of_getElem? found
  · rw [declareEntities_funcs ranDeclare]
    exact listed.le_of_defined member

theorem Module.Listed.not_imported {index : Nat} (listed : module.Listed) (member : index ∈ module.definedFuncs) :
    index ∉ module.imported .func := by
  have distinct : (module.imported .func ++ module.definedFuncs).Nodup := listed.funcs ▸ List.nodup_range
  exact fun imported => (List.nodup_append.mp distinct).2.2 index imported index member rfl

/-- Names are read when functions are declared; those of defined functions are the module's. -/
theorem declareFuncs_readable (listed : module.Listed) (fix : opts.fixNames = true)
    (ranDeclare : declareEntities module (Context.start opts arrays module) = .ok ((), declared))
    (ranFill : module.dataSegments.forM visitDataSegment declared = .ok ((), filled)) :
    declareFuncs module.definedFuncs filled ≠ .error (.abort .assertion) ↔
      Readable opts module.funcs module.definedFuncs := by
  have remains := (declareEntities_named module).run ranDeclare (start_named opts arrays module)
  obtain ⟨named, steady⟩ := (visitDataSegments_leave _).run ranFill remains.named
  have isOpts : filled.opts = opts := steady.opts.trans remains.opts
  have sameFuncs : declaredFuncs filled.module.funcs module.definedFuncs =
      declaredFuncs module.funcs module.definedFuncs := by
    unfold declaredFuncs
    refine congrArg _ (List.map_congr_left fun index member => ?_)
    rw [steady.module]
    exact remains.funcs index (listed.not_imported member)
  rw [declareFuncs_reads_iff (isOpts ▸ fix) named, Readable, isOpts, sameFuncs, Readable]

end Before

/-! ## Names from exports -/

/-- The exports give a function a name: the last of its names, unless a variable has it, or
the first one, if the function has no name and no value has this one. -/
def TakesName (opts : Options) (exports : List Export) (before : Context) (index id : Nat) (name : Name) : Prop :=
  if opts.forceExportName then
    (exportedNames exports index).getLast? = some name ∧
      ∀ other, functionName before.llvmModule other = name → isFunctionAt before.llvmModule other
  else
    functionName before.llvmModule id = [] ∧ (exportedNames exports index).head? = some name ∧
      ∀ other, functionName before.llvmModule other ≠ name

section Names

variable {before exported : Context} {exports : List Export} {index id : Nat} {name : Name}

theorem Forced.takes_iff (forced : Forced before exports exported) (named : Named before)
    (found : before.funcs[index]? = some id) (noDot : '.' ∉ name) (nonempty : name ≠ [])
    (differs : functionName before.llvmModule id ≠ name) : functionName exported.llvmModule id = name ↔
      (exportedNames exports index).getLast? = some name ∧
        ∀ other, functionName before.llvmModule other = name → isFunctionAt before.llvmModule other := by
  constructor
  · intro same
    refine ⟨forced.sources index id name found noDot nonempty differs same, fun other has => ?_⟩
    by_contra notFunction
    have stillNamed := (forced.others other notFunction).trans has
    have equal := forced.named.distinct other id (stillNamed.trans same.symm) (stillNamed.symm ▸ nonempty)
    exact notFunction (equal ▸ named.functions id (List.mem_of_getElem? found))
  · intro takes
    exact forced.names index id name found takes.1 takes.2

theorem Preferred.takes_iff (preferred : Preferred before exports exported) (distinctFuncs : before.funcs.Nodup)
    (found : before.funcs[index]? = some id) (noDot : '.' ∉ name) (nonempty : name ≠ [])
    (differs : functionName before.llvmModule id ≠ name) : functionName exported.llvmModule id = name ↔
      functionName before.llvmModule id = [] ∧ (exportedNames exports index).head? = some name ∧
        ∀ other, functionName before.llvmModule other ≠ name := by
  constructor
  · intro same
    have nameless : functionName before.llvmModule id = [] := by
      by_contra hasName
      exact differs ((preferred.kept id hasName).symm.trans same)
    refine ⟨nameless, ?_, fun other has => ?_⟩
    · cases names : exportedNames exports index with
      | nil =>
          have still := preferred.rest id nameless fun other foundOther => by
            have inside := (List.getElem?_eq_some_iff.mp found).1
            rw [← (List.getElem?_inj inside distinctFuncs).mp (found.trans foundOther.symm), names]
          exact absurd (same.symm.trans still) nonempty
      | cons first rest =>
          have got := preferred.first index id first found nameless (by rw [names]; rfl)
          rw [List.head?_cons, ← got.source (same ▸ noDot), same]
    · have stillNamed := (preferred.kept other (has ▸ nonempty)).trans has
      have equal := preferred.named.distinct other id (stillNamed.trans same.symm) (stillNamed.symm ▸ nonempty)
      exact differs (equal ▸ has)
  · intro takes
    exact (preferred.first index id name found takes.1 takes.2.1).free takes.2.2 noDot

end Names

section Module

variable {opts : Options} {arrays : DataArrays} {module : Module} {context : Context}

theorem reserved_plain {name : Name} (reserved : Reserved name) :
    '.' ∉ name ∧ name ≠ [] ∧ ∀ index, name ≠ defaultBase index := by
  have first : some 'm' ≠ some 'f' := by decide
  cases reserved with
  | inl same =>
      rw [same]
      exact ⟨by decide, List.cons_ne_nil _ _, fun _ equal => first (congrArg List.head? equal)⟩
  | inr same =>
      rw [same]
      exact ⟨by decide, List.cons_ne_nil _ _, fun _ equal => first (congrArg List.head? equal)⟩

/-- A function that did not have the name before the exports has it at the end exactly when
it takes it from them. -/
theorem translateModule_takes_iff (unique : (module.exports.map Export.name).Nodup)
    (ran : translateModule opts arrays module = .ok context) : ∃ before,
      beforeExports module (Context.start opts arrays module) = .ok ((), before) ∧ context.funcs = before.funcs ∧
        ∀ (index id : Nat) (name : Name), before.funcs[index]? = some id → Reserved name →
          functionName before.llvmModule id ≠ name →
            (functionName context.llvmModule id = name ↔ TakesName opts module.exports before index id name) := by
  obtain ⟨before, exported, named, ranBefore, isNamed, isOpts, ranExports, rest⟩ := translateModule_phases ran
  -- default names and table initializers change nothing about the name
  have keeps : Named exported → exported.funcs = before.funcs →
      (∀ id, isFunctionAt exported.llvmModule id ↔ isFunctionAt before.llvmModule id) →
        context.funcs = before.funcs ∧ ∀ id name, id ∈ before.funcs → Reserved name →
          (functionName context.llvmModule id = name ↔ functionName exported.llvmModule id = name) := by
    intro namedExported funcs kinds
    obtain ⟨defaults, _, steady, _⟩ := rest namedExported
    refine ⟨steady.funcs.trans (defaults.funcs.trans funcs), fun id name member reserved => ?_⟩
    obtain ⟨noDot, nonempty, notDefault⟩ := reserved_plain reserved
    have isFunction : isFunctionAt exported.llvmModule id := (kinds id).mpr (isNamed.functions id member)
    rw [functionName_congr (steady.function ((defaults.kinds id).mpr isFunction))]
    constructor
    · intro same
      by_cases nameless : functionName exported.llvmModule id = []
      · cases defaults.new id isFunction nameless (same ▸ noDot) with
        | inl still => exact absurd (same.symm.trans still) nonempty
        | inr given =>
            obtain ⟨index, isDefault⟩ := given
            exact absurd (same.symm.trans isDefault) (notDefault index)
      · exact (defaults.kept id nameless).symm.trans same
    · intro same
      exact (defaults.kept id (same ▸ nonempty)).trans same
  refine ⟨before, ranBefore, ?_⟩
  cases force : opts.forceExportName with
  | true =>
      have forced : Forced before module.exports exported :=
        visitExports_forced (.start isNamed) unique (isOpts ▸ force) isNamed.nodup ranExports
      obtain ⟨funcs, keeps⟩ := keeps forced.named forced.funcs forced.kinds
      refine ⟨funcs, fun index id name found reserved differs => ?_⟩
      obtain ⟨noDot, nonempty, _⟩ := reserved_plain reserved
      rw [keeps id name (List.mem_of_getElem? found) reserved, TakesName, if_pos force]
      exact forced.takes_iff isNamed found noDot nonempty differs
  | false =>
      have preferred : Preferred before module.exports exported :=
        visitExports_preferred (.start isNamed) unique (isOpts ▸ force) isNamed.nodup ranExports
      obtain ⟨funcs, keeps⟩ := keeps preferred.named preferred.funcs preferred.kinds
      refine ⟨funcs, fun index id name found reserved differs => ?_⟩
      obtain ⟨noDot, nonempty, _⟩ := reserved_plain reserved
      rw [keeps id name (List.mem_of_getElem? found) reserved, TakesName, if_neg (Bool.eq_false_iff.mp force)]
      exact preferred.takes_iff isNamed.nodup found noDot nonempty differs

/-- No first character of an empty name is read, and no function of the module has a
reserved name. -/
structure NamesFixed (opts : Options) (arrays : DataArrays) (module : Module) : Prop where
  reads : ∀ declared filled, declareEntities module (Context.start opts arrays module) = .ok ((), declared) →
    module.dataSegments.forM visitDataSegment declared = .ok ((), filled) →
      declareFuncs module.definedFuncs filled ≠ .error (.abort .assertion)
  names : ∀ context, translateModule opts arrays module = .ok context → ∀ index ∈ module.definedFuncs, ∀ id : Nat,
    context.funcs[index]? = some id → ¬Reserved (functionName context.llvmModule id)

/-- No function of the module takes a reserved name from the exports. -/
def NoneTakesReserved (opts : Options) (module : Module) (before : Context) : Prop :=
  ∀ index ∈ module.definedFuncs, ∀ id : Nat, before.funcs[index]? = some id →
    ∀ name, Reserved name → ¬TakesName opts module.exports before index id name

/-- Where names are read there are first characters, and the exports give no function of the
module a reserved name. -/
structure Fixable (opts : Options) (arrays : DataArrays) (module : Module) : Prop where
  readable : ∀ declared filled, declareEntities module (Context.start opts arrays module) = .ok ((), declared) →
    module.dataSegments.forM visitDataSegment declared = .ok ((), filled) →
      Readable opts module.funcs module.definedFuncs
  exports : ∀ context before, translateModule opts arrays module = .ok context →
    beforeExports module (Context.start opts arrays module) = .ok ((), before) →
      NoneTakesReserved opts module before

theorem translateModule_fixNames_iff (listed : module.Listed) (unique : (module.exports.map Export.name).Nodup)
    (fix : opts.fixNames = true) : NamesFixed opts arrays module ↔ Fixable opts arrays module := by
  constructor
  · intro fixed
    refine ⟨fun declared filled ranDeclare ranFill => ?_, fun context before ran ranBefore => ?_⟩
    · exact (declareFuncs_readable listed fix ranDeclare ranFill).mp (fixed.reads declared filled ranDeclare ranFill)
    · obtain ⟨other, ranOther, funcs, takes⟩ := translateModule_takes_iff unique ran
      cases ranBefore.symm.trans ranOther
      intro index member id found name reserved takesName
      have notReserved := beforeExports_fixed listed fix ranBefore member found
      have same := (takes index id name found reserved fun has => notReserved (has.symm ▸ reserved)).mpr takesName
      exact fixed.names context ran index member id (funcs.symm ▸ found) (same.symm ▸ reserved)
  · intro holds
    obtain ⟨readable, none_⟩ := holds
    refine ⟨fun declared filled ranDeclare ranFill => ?_, fun context ran index member id found reserved => ?_⟩
    · exact (declareFuncs_readable listed fix ranDeclare ranFill).mpr (readable declared filled ranDeclare ranFill)
    · obtain ⟨before, ranBefore, funcs, takes⟩ := translateModule_takes_iff unique ran
      rw [funcs] at found
      have notReserved := beforeExports_fixed listed fix ranBefore member found
      refine none_ context before ran ranBefore index member id found _ reserved ?_
      exact (takes index id _ found reserved fun has => notReserved (has.symm ▸ reserved)).mp rfl

end Module

/-- A module with one function. -/
def oneFunction (name : Name) (exports : List Export) : Module where
  name := []
  funcs := [⟨name, ⟨[], []⟩, [], []⟩]
  globals := []
  tables := []
  memories := []
  imports := []
  fields := [.func 0]
  exports := exports
  elemSegments := []

theorem oneFunction_fixed_iff :
    NamesFixed ⟨false, true, false, true, false, false, false⟩ [] (oneFunction "$memset".toList [⟨"f".toList, .func, 0⟩]) ↔
      Fixable ⟨false, true, false, true, false, false, false⟩ [] (oneFunction "$memset".toList [⟨"f".toList, .func, 0⟩]) :=
  translateModule_fixNames_iff ⟨rfl, rfl, rfl, rfl⟩ (by decide) rfl

/-- A function without a name, and one that is exported as `memset`. -/
theorem oneFunction_not_fixed : ¬NamesFixed ⟨false, true, false, false, false, false, false⟩ [] (oneFunction [] []) ∧
    ¬NamesFixed ⟨false, true, false, true, false, false, false⟩ []
      (oneFunction "$f".toList [⟨"memset".toList, .func, 0⟩]) := by
  constructor
  · intro fixed
    exact fixed.reads _ _ rfl rfl rfl
  · intro fixed
    have takes : ((translateModule ⟨false, true, false, true, false, false, false⟩ []
        (oneFunction "$f".toList [⟨"memset".toList, .func, 0⟩])).toOption.bind fun context =>
          context.funcs[0]?.map (functionName context.llvmModule)) = some "memset".toList := by
      decide +kernel
    cases ran : translateModule ⟨false, true, false, true, false, false, false⟩ []
        (oneFunction "$f".toList [⟨"memset".toList, .func, 0⟩]) with
    | error failure => rw [ran] at takes; cases takes
    | ok context =>
        rw [ran] at takes
        obtain ⟨id, found, isName⟩ := Option.map_eq_some_iff.mp takes
        exact fixed.names context ran 0 List.mem_cons_self id found (.inl isName)

end WasmToLlvm.Modules
