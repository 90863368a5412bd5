import WasmToLlvm.Block.Constructs
import WasmToLlvm.Block.Progress

/-!
# Calls

The entry block stores the arguments and the zeros of the locals; behind it the
translated function stands where the body of the function starts.
-/

set_option autoImplicit false

namespace WasmToLlvm.Block

open Llvm Wasm Library BlockContext

section Storage

variable {Instr Store : Type} {signature : Instr → Option FuncSignature}
  {effects : Effects Instr Store signature} {final context : BlockContext Instr}
  {block : Nat} {actuals values locals : List Nat} {state : State Store} {entries : List (Ty × Value)}

/-- The values that the entries of the storage start with. -/
abbrev Initial (actuals : List Nat) (entries : List (Ty × Value)) (values : List Nat) : Prop :=
  List.Forall₂ (fun entry value => ∀ registers, entry.2.eval actuals registers = some value) entries values

theorem arguments_initial {index : Nat} {types : List Ty} (fits : actuals.length = index + types.length) :
    Initial actuals (arguments index types) (actuals.drop index) := by
  induction types generalizing index with
  | nil =>
      have ends : actuals.drop index = [] := List.drop_eq_nil_of_le (Nat.le_of_eq fits)
      rw [ends]
      exact .nil
  | cons type types ih =>
      rw [List.length_cons] at fits
      have inside : index < actuals.length := by omega
      rw [List.drop_eq_getElem_cons inside]
      exact .cons (fun _ => List.getElem?_eq_getElem inside) (ih (by omega))

theorem zeros_initial (types : List Ty) : Initial actuals (zeros types) (types.map fun _ => 0) := by
  induction types with
  | nil => exact .nil
  | cons type types ih =>
      refine .cons (fun registers => ?_) ih
      cases type <;> simp [zeroValue, Value.eval]

/-- What the entry block has stored so far. -/
structure StoredHere (block : Nat) (context : BlockContext Instr) (locals : List Nat)
    (state : State Store) : Prop where
  here : context.At block
  atBlock : state.block = block
  position : state.position = (context.function.body block).length
  older : ∀ alloca ∈ context.locals, alloca.id < context.function.insts.length
  stored : Stored context.locals state.registers state.slots locals

variable (effects) in
theorem StoredHere.one {type : Ty} {value : Value} {operand : Nat} (stored : StoredHere block context locals state)
    (grows : (context.store block [(type, value)]).function.Grows final.function)
    (evaluates : ∀ registers, value.eval actuals registers = some operand) :
    ∃ state', Runs (translated effects final actuals) 2 state [] state' ∧
      state'.store = state.store ∧
      StoredHere block (context.store block [(type, value)]) (locals ++ [operand]) state' := by
  obtain ⟨here, atBlock, position, older, stored⟩ := stored
  let id := context.function.insts.length
  let address := state.slots.length
  let allocated : State Store := { state.define id address with slots := state.slots ++ [none] }
  have size : address = locals.length := by
    rw [← List.length_map some, ← stored.slots]
  have allocates : translated effects final actuals state = .step none allocated :=
    step_at [.plain (.alloca type), .plain (.store value (.inst id .ptr))] 0 here grows rfl atBlock position
  have stores : translated effects final actuals allocated = .step none { allocated with
      position := state.position + 2, slots := state.slots ++ [some operand] } := by
    have at_ : translated effects final actuals allocated =
        allocated.executePlain effects.run actuals (id + 1) (.store value (.inst id .ptr)) :=
      step_at [.plain (.alloca type), .plain (.store value (.inst id .ptr))] 1 here grows rfl atBlock
        (congrArg (· + 1) position)
    have found : (Value.inst id .ptr).eval actuals allocated.registers = some address :=
      Registers.set_same _ _ _
    rw [at_, State.executePlain, evaluates, found]
    simp [allocated, address, State.define]
  refine ⟨_, (Runs.single allocates).trans (.single stores), rfl, store_at here _, atBlock, ?_, ?_, ?_, ?_, ?_⟩
  · show state.position + 2 = ((context.function.appendAll block _).body block).length
    rw [Function.body_appendAll_self here.bound, position]
    simp [storage]
  · intro alloca member
    have grown : (context.store block [(type, value)]).function.insts.length = id + 2 := by
      simp [store, storage, id]
    rw [grown]
    rcases List.mem_append.mp member with old | new
    · exact Nat.lt_add_right 2 (older alloca old)
    · obtain rfl := List.mem_singleton.mp new
      exact Nat.lt_add_of_pos_right Nat.two_pos
  · show (context.locals ++ [_]).length = (locals ++ [operand]).length
    rw [List.length_append, List.length_append, stored.count]
    rfl
  · rw [List.map_append, ← stored.slots]
    rfl
  · intro index alloca found
    change (context.locals ++ [(⟨id, type⟩ : AllocaInst)])[index]? = some alloca at found
    rcases Nat.lt_or_ge index context.locals.length with old | new
    · rw [List.getElem?_append_left old] at found
      have different := Nat.ne_of_lt (older alloca (List.mem_of_getElem? found))
      exact (Registers.set_other _ different).trans (stored.addresses found)
    · rw [List.getElem?_append_right new] at found
      have isIndex : index = address := by
        have inside := (List.getElem?_eq_some_iff.mp found).1
        rw [List.length_singleton] at inside
        rw [size, ← stored.count]
        omega
      rw [isIndex, size, ← stored.count, Nat.sub_self] at found
      obtain rfl := Option.some.inj found
      rw [isIndex]
      exact Registers.set_same _ _ _

variable (effects) in
/-- The storage of the entry block holds the values of its entries. -/
theorem StoredHere.runs (stored : StoredHere block context locals state)
    (grows : (context.store block entries).function.Grows final.function)
    (initial : Initial actuals entries values) :
    ∃ count state', Runs (translated effects final actuals) count state [] state' ∧ state'.store = state.store ∧
      StoredHere block (context.store block entries) (locals ++ values) state' := by
  induction initial generalizing context locals state with
  | nil =>
      rw [store_nil stored.here, List.append_nil]
      exact ⟨0, state, .refl, rfl, stored⟩
  | @cons entry value entries values evaluates rest ih =>
      obtain ⟨type, initial⟩ := entry
      have split : context.store block ((type, initial) :: entries) =
          (context.store block [(type, initial)]).store block entries := by
        simp [store, storage, storageLocals, addLocals, emitAll]
      rw [split] at grows ⊢
      obtain ⟨middle, first, sameStore, there⟩ := stored.one effects
        (((Function.Grows.refl _).appendAll _ _).trans grows) evaluates
      obtain ⟨count, state', more, sameStore', goal⟩ := ih there grows
      rw [List.append_assoc] at goal
      exact ⟨2 + count, state', first.trans more, sameStore'.trans sameStore, goal⟩

end Storage

section Functions

theorem storageLocals_known (entries : List (Ty × Value)) (next : Nat) :
    ∀ alloca ∈ storageLocals next entries,
      alloca.id < next + 2 * entries.length ∧ alloca.allocatedType ∈ entries.map Prod.fst := by
  induction entries generalizing next with
  | nil => nofun
  | cons entry entries ih =>
      intro alloca member
      rcases List.mem_cons.mp member with rfl | member
      · refine ⟨?_, by simp⟩
        rw [List.length_cons]
        dsimp only
        omega
      · obtain ⟨old, typed⟩ := ih (next + 2) alloca member
        refine ⟨?_, List.mem_cons_of_mem _ typed⟩
        rw [List.length_cons]
        omega

theorem storage_length {Op : Type} (entries : List (Ty × Value)) (next : Nat) :
    (storage next entries : List (Inst Op)).length = 2 * entries.length := by
  induction entries generalizing next with
  | nil => rfl
  | cons entry entries ih =>
      simp only [storage, List.length_cons, ih]
      omega

theorem arguments_types (types : List Ty) (index : Nat) : (arguments index types).map Prod.fst = types := by
  induction types generalizing index with
  | nil => rfl
  | cons type types ih => simp [arguments, ih]

theorem prologue_known {Op : Type} {params locals : List Ty} :
    ∀ alloca ∈ (prologue params locals : BlockContext Op).locals,
      alloca.id < (prologue params locals : BlockContext Op).function.insts.length ∧
        alloca.allocatedType ∈ params ++ locals := by
  intro alloca member
  have size : (prologue params locals : BlockContext Op).function.insts.length =
      2 * params.length + 2 * locals.length := by
    simp [prologue, store, storage_length, arguments_length, zeros, Function.empty]
  simp only [prologue, store, newBlock_locals, addLocals_locals, emitAll_locals, moveTo_locals,
    List.nil_append] at member
  rw [size]
  rcases List.mem_append.mp member with inside | inside
  · obtain ⟨old, typed⟩ := storageLocals_known _ _ alloca inside
    rw [arguments_types] at typed
    simp only [moveTo_function, newBlock_function, Function.insts_newBlock, Function.empty,
      List.length_nil, Nat.zero_add, arguments_length] at old
    exact ⟨by omega, List.mem_append_left _ typed⟩
  · obtain ⟨old, typed⟩ := storageLocals_known _ _ alloca inside
    simp only [addLocals_function, emitAll_function, moveTo_function, newBlock_function,
      Function.insts_appendAll, Function.insts_newBlock, Function.empty, List.length_append,
      List.length_nil, Nat.zero_add, storage_length, arguments_length, zeros, List.length_map] at old
    refine ⟨by omega, List.mem_append_right _ ?_⟩
    simpa [zeros] using typed

variable {I : InstructionSet} {func : Func I.Instr} {params locals results : List Ty}

theorem startFunc_good (paramsOk : Convert func.decl.params params)
    (localsOk : Convert func.localTypes locals) (resultsOk : Convert func.decl.results results) :
    Good [1] (startFunc params locals results func.decl : BlockContext I.Op) where
  logged := startFunc_logged _ _ _ _
  shaped := startFunc_shaped _ _ _ _
  consistent := nofun
  sound := by
    refine ⟨nofun, fun alloca member => ?_, fun label member phi inside => ?_⟩
    · obtain ⟨old, typed⟩ := prologue_known alloca member
      refine ⟨Nat.lt_of_lt_of_le old ?_, ?_⟩
      · simp [startFunc, openLabel]
      · rcases List.mem_append.mp typed with typed | typed
        · exact convert_scalar paramsOk _ typed
        · exact convert_scalar localsOk _ typed
    · obtain rfl := List.mem_singleton.mp member
      have known := (resultPhis_known (convert_scalar resultsOk) _ phi inside).2
      simpa [startFunc, openLabel] using known

/-- The way out of the body of a function. -/
theorem startFunc_exit {inner : BlockContext I.Op} (paramsOk : Convert func.decl.params params)
    (localsOk : Convert func.localTypes locals) (resultsOk : Convert func.decl.results results)
    (scalar : I.Scalar) (run : Emits I (startFunc params locals results func.decl) func.exprs inner)
    (closable : Closable inner (funcLabel I.Op params locals results func.decl).pos
      func.decl.results.length) :
    Exit (funcLabel I.Op params locals results func.decl) [] [] inner
      ((inner.leave .func (funcLabel I.Op params locals results func.decl)).moveTo 1) := by
  have good := run.good scalar (startFunc_good paramsOk localsOk resultsOk)
  have top : inner.blockStack = [funcLabel I.Op params locals results func.decl] := run.blockStack
  have blocks : (prologue params locals : BlockContext I.Op).function.blocks.length = 2 :=
    prologue_blocks_length params locals
  have asideStart : Aside 1 ((funcLabel I.Op params locals results func.decl).phis.map PHINode.id)
      (startFunc params locals results func.decl : BlockContext I.Op) := by
    refine ⟨?_, ?_, ?_⟩
    · simp [startFunc, openLabel, blocks]
    · refine (Function.body_appendAll_self (by omega)).trans ?_
      have fresh : (prologue params locals : BlockContext I.Op).function.body 1 = [] := by
        simp [prologue, store, Function.body_eq_nil, Function.empty]
      rw [fresh]
      simp [funcLabel, exitLabel, resultPhis_ids]
    · rw [(startFunc_at _ _ _ _).getInsertBlock]
      simp
  refine leave_exit .func (by decide) good.logged (top ▸ List.mem_cons_self) List.nil_suffix rfl
    (exitLabel_sized _ _ _ resultsOk) closable (run.aside asideStart) ⟨(prologue params locals :
      BlockContext I.Op).function.insts.length, fun phi inside => ?_, by simp, fun alloca member => ?_⟩
  · exact (resultPhis_known (convert_scalar resultsOk) _ phi inside).1
  · rw [run.locals] at member
    exact (prologue_known alloca member).1

end Functions

section Calls

variable {Instr Store : Type} {signature : Instr → Option FuncSignature}
  {effects : Effects Instr Store signature} {final : BlockContext Instr} {actuals : List Nat}
  {func : Func Instr} {params locals results : List Ty}

variable (effects) in
/-- The code of the entry block in front of the body. -/
theorem startFunc_runs (decl : BlockDeclaration) (fits : actuals.length = params.length)
    (grows : (startFunc params locals results decl).function.Grows final.function) (store : Store) :
    ∃ count state', Runs (translated effects final actuals) count (State.start store) [] state' ∧
      state'.store = store ∧ StoredHere 0 (startFunc params locals results decl : BlockContext Instr)
        (actuals ++ locals.map fun _ => 0) state' := by
  let opened : BlockContext Instr :=
    (BlockContext.newBlock ⟨.empty, none, [], [], [], []⟩ "allocator").moveTo 0
  have here : opened.At 0 := moveTo_at (by simp [Function.empty])
  have start : StoredHere 0 opened [] (State.start store) :=
    ⟨here, rfl, rfl, fun alloca member => absurd member List.not_mem_nil,
      ⟨rfl, rfl, fun found => by cases found⟩⟩
  have grown : ((opened.store 0 (arguments 0 params)).store 0 (zeros locals)).function.Grows
      final.function :=
    (((Function.Grows.refl _).newBlock "return").appendAll 1 (phiInsts 0 results)).trans grows
  have first : (opened.store 0 (arguments 0 params)).function.Grows final.function :=
    ((Function.Grows.refl _).appendAll _ _).trans grown
  obtain ⟨count, middle, run, sameStore, stored⟩ := start.runs effects first
    (arguments_initial (by rw [fits, Nat.zero_add]))
  obtain ⟨count', state', run', sameStore', stored'⟩ := stored.runs effects grown (zeros_initial locals)
  refine ⟨count + count', state', run.trans run', sameStore'.trans sameStore, ?_⟩
  obtain ⟨_, atBlock, position, older, kept⟩ := stored'
  refine ⟨startFunc_at _ _ _ _, atBlock, ?_, fun alloca member => ?_, kept⟩
  · rw [position]
    exact congrArg List.length ((Function.body_appendAll_of_ne (Nat.ne_of_lt Nat.one_pos)).trans
      (Function.body_newBlock _ _ _)).symm
  · exact Nat.lt_of_lt_of_le (older alloca member) (by simp [startFunc, openLabel, prologue, opened])

theorem finish_extends {context : BlockContext Instr} (numbered : context.function.Numbered)
    (block arity : Nat) : context.Extends (context.finish block arity) := by
  have same : ∀ stack, context.Extends (context.withStack stack) :=
    fun _ => (Extends.refl context).congr rfl rfl
  rcases arity with _ | arity
  · exact (Extends.refl context).emitAll numbered block (terminator_notPhi (.ret none) rfl)
  · cases top : context.stack with
    | nil =>
        have unchanged : context.finish block (arity + 1) = context := by simp [finish, top]
        rw [unchanged]
        exact .refl context
    | cons value rest =>
        have returns : context.finish block (arity + 1) =
            (context.withStack rest).emit block (.ret (some value)) := by
          simp [finish, top]
        rw [returns]
        exact (same rest).emitAll numbered block (terminator_notPhi (.ret (some value)) rfl)

/-- A call of the translated function runs to where the body starts. -/
theorem call_related (validated : Validated signature func)
    (emitted : EmitsFunc (opaqueSet Instr signature) func final)
    (fits : actuals.length = func.decl.params.length) (store : Store) :
    ∃ count state', Runs (translated effects final actuals) count (State.start store) [] state' ∧
      Related signature final actuals (func.start actuals store) state' := by
  obtain @⟨params, locals, results, inner, paramsOk, localsOk, resultsOk, run, closable, single⟩ := emitted
  obtain ⟨operands, checked, closed⟩ := (validated_iff (I := opaqueSet Instr signature)).mp validated
  have scalar : (opaqueSet Instr signature).Scalar := opaqueSet_scalar signature
  let label := funcLabel Instr params locals results func.decl
  have sized : label.phis.length = func.decl.results.length := exitLabel_sized _ _ _ resultsOk
  have start := startFunc_good (I := opaqueSet Instr signature) paramsOk localsOk resultsOk
  have top : inner.blockStack = [label] := run.blockStack
  have left := leave_good .func (run.placed (.inr ⟨0, startFunc_at _ _ _ _⟩)) (run.good scalar start)
    (top ▸ List.mem_cons_self) sized closable
  have exit := startFunc_exit paramsOk localsOk resultsOk scalar run closable
  have finished := finish_extends left.logged.traced.numbered 1 func.decl.results.length
  have lowers : Lowers (I := opaqueSet Instr signature) signature []
      (startFunc params locals results func.decl) func.exprs inner :=
    ⟨run, ⟨[1], start⟩, List.nil_suffix, funcValidation signature func, .live [], operands,
      startFunc_matches paramsOk localsOk resultsOk, rfl, checked, startFunc_standing⟩
  obtain ⟨count, state', runs, sameStore, here, atBlock, position, older, stored⟩ :=
    startFunc_runs effects func.decl (fits.trans paramsOk.length_eq)
      ((lowers.extends.trans exit.extends_).trans finished).grows store
  have zeros : (locals.map fun _ => 0) = func.localTypes.map fun _ => 0 := by
    rw [List.map_const', List.map_const', localsOk.length_eq]
  rw [zeros] at stored
  let final : BlockContext Instr := ((inner.leave .func label).moveTo 1).finish 1 func.decl.results.length
  have nest : Nest signature final actuals state'.registers (startFunc params locals results
      func.decl : BlockContext Instr).locals inner [] [label] (func.start actuals store).labels :=
    .func exit finished (by rw [sized]; rfl) (sized ▸ single) sized.symm rfl rfl rfl (by simp [run.locals])
  have running : Running signature final actuals (startFunc params locals results func.decl) inner [] []
      (func.start actuals store) state' :=
    ⟨atBlock ▸ here, atBlock ▸ position, lowers, nest, rfl, .nil, stored, sameStore,
      start_valid validated fits store⟩
  exact ⟨count, state', runs, .running running⟩

/-- What is known of a finished translation. -/
theorem EmitsFunc.settled (emitted : EmitsFunc (opaqueSet Instr signature) func final)
    (faithful : final.Faithful) : Settled final := by
  have history := emitted.history
  refine ⟨history.logged.traced.numbered, history.logged.recorded, ?_, faithful⟩
  obtain @⟨params, locals, results, inner, paramsOk, localsOk, resultsOk, run, closable, single⟩ := emitted
  have start := startFunc_good (I := opaqueSet Instr signature) paramsOk localsOk resultsOk
  have top : inner.blockStack = [funcLabel Instr params locals results func.decl] := run.blockStack
  have left := leave_good .func (run.placed (.inr ⟨0, startFunc_at _ _ _ _⟩))
    (run.good (opaqueSet_scalar signature) start) (top ▸ List.mem_cons_self)
    (exitLabel_sized _ _ _ resultsOk) closable
  rw [finish_edges]
  exact left.consistent

end Calls

end WasmToLlvm.Block
