import WasmToLlvm.Block.StraightSteps

/-!
# Transfers of control

The translated function follows branches: the edge that the translation made for the
branch carries the operands that the branch takes.
-/

set_option autoImplicit false

namespace WasmToLlvm.Block

open Llvm Wasm Library BlockContext

variable {Instr Store : Type} {signature : Instr → Option FuncSignature}
  {effects : Effects Instr Store signature} {final context inner : BlockContext Instr}
  {arguments : List Nat} {base values : List Value} {config next : Config Instr Store}
  {state state' : State Store} {event : Option (Event Instr)} {rest : List (Expr Instr)}

section Labels

variable {registers : Registers} {locals : List AllocaInst} {label : BreakoutTarget}
  {labels : List BreakoutTarget} {entry : Label Instr} {entries : List (Label Instr)}

theorem Nest.arity (nest : Nest signature final arguments registers locals inner base (label :: labels)
    (entry :: entries)) : entry.arity = label.phis.length := by
  cases nest with
  | func _ _ _ _ arity => exact arity
  | exit _ _ arity => exact arity
  | loop _ _ _ phis _ _ arity =>
      rw [arity, phis]
      rfl

theorem carriedValues_append {front : List Value} {arity : Nat} (enough : arity ≤ front.length)
    (back : List Value) : carriedValues (front ++ back) arity = carriedValues front arity := by
  rw [carriedValues, carriedValues, List.take_append_of_le_length enough]

/-- The phis of an open label are known to the finished function. -/
theorem BlockContext.Extends.phiAt (extends_ : context.Extends final) (logged : context.Logged)
    (member : label ∈ context.blockStack) :
    ∀ id index type, label.phis[index]? = some ⟨id, type⟩ →
      PhiAt final.function label.target id index type := by
  intro id index type found
  obtain ⟨inside, object⟩ := ((logged.labelled label member).phis id index type).mpr found
  exact ⟨extends_.grows.member inside, extends_.grows.inst object⟩

/-- A jump to a label is the branch to its depth. -/
theorem Nest.branches {depth : Nat} {edge : Edge} (moves : config.branch depth = .step event next)
    (nest : Nest signature final arguments state.registers context.locals inner base context.blockStack
      config.labels)
    (settled : Settled final) (extends_ : context.Extends final) (logged : context.Logged)
    (found : context.blockStack[depth]? = some label) (member : edge ∈ final.edges) (source : edge.source = state.block)
    (target : edge.target = label.target)
    (carried : edge.carried = carriedValues (values ++ base) label.phis.length)
    (denotes : Denotes arguments state.registers values config.operands)
    (stored : Stored context.locals state.registers state.slots config.locals)
    (store : state.store = config.store) (valid : Valid signature next) :
    event = none ∧ ∃ state', (state.jump final.function arguments label.target :
      State.Next Instr Store) = .step none state' ∧ Related signature final arguments next state' := by
  obtain ⟨entry, foundEntry, enough, rfl, rfl⟩ := branch_moves moves
  obtain ⟨inside, isLabel⟩ := List.getElem?_eq_some_iff.mp found
  obtain ⟨insideEntry, isEntry⟩ := List.getElem?_eq_some_iff.mp foundEntry
  obtain ⟨inner', front, base', rfl, deeper⟩ := nest.drop inside
  rw [List.drop_eq_getElem_cons inside, isLabel, List.drop_eq_getElem_cons insideEntry, isEntry] at deeper
  have arity := deeper.arity
  have count : label.phis.length ≤ values.length := by
    rw [denotes.length_eq, ← arity]
    exact enough
  rw [carriedValues_append count] at carried
  have inStack : label ∈ context.blockStack := List.mem_of_getElem? found
  exact ⟨rfl, deeper.arrive settled (extends_.phiAt logged inStack)
    (logged.labelled label inStack).ids_nodup member source target carried denotes enough stored store
    valid⟩

end Labels

/-- A jump to the start of a block without phis. -/
theorem jump_start {opened : BlockContext Instr} {target : Nat} (settled : Settled final)
    (extends_ : opened.Extends final) (there : opened.At target)
    (nothing : opened.function.body target = []) :
    (state.jump final.function arguments target : State.Next Instr Store) =
      .step none { state with block := target, position := 0 } := by
  refine jump_plain ?_
  rw [extends_.leadingPhis settled.numbered there.bound (by simp [nothing]), nothing]

section Branches

/-- Execution of `unreachable` traps on both sides. -/
theorem Running.unreachable
    (running : Running signature final arguments context inner base values config state)
    (exprs : config.exprs = .unreachable :: rest) :
    translated effects final arguments state = .halt (.trapped config.store) := by
  have lowers := running.lowers
  rw [exprs] at lowers
  have after := lowers.ofUnreachable running.here (opaqueSet_tracks signature) (opaqueSet_scalar signature)
  rw [step_at [.unreachable] 0 running.here (after.extends.trans running.nest.extends).grows rfl rfl
    running.position, State.execute, running.store]

theorem Running.br {depth : Nat}
    (running : Running signature final arguments context inner base values config state)
    (settled : Settled final) (exprs : config.exprs = .br depth :: rest)
    (moves : config.stepExpr effects (.br depth) rest = .step event next)
    (valid : Valid signature next) : Follows effects final arguments config state event next := by
  have lowers := running.lowers
  rw [exprs] at lowers
  obtain ⟨label, branches, after⟩ :=
    lowers.ofBr running.here (opaqueSet_tracks signature) (opaqueSet_scalar signature)
  have extends_ := after.extends.trans running.nest.extends
  have jumps : translated effects final arguments state =
      state.jump final.function arguments label.target :=
    step_at [.br label.target] 0 (running.here.branchTo label) extends_.grows rfl rfl running.position
  have member : (⟨.branch, state.block, label.target, carriedValues context.stack label.phis.length⟩ :
      Edge) ∈ final.edges := extends_.edges.subset (List.mem_append_right _ List.mem_cons_self)
  obtain ⟨rfl, state', jump, related⟩ := running.nest.branches moves settled running.extends
    running.lowers.logged branches.found member rfl rfl (congrArg (carriedValues · _) running.stack)
    running.denotes running.stored running.store valid
  exact follows_one (jumps.trans jump) related

theorem Running.return_
    (running : Running signature final arguments context inner base values config state)
    (settled : Settled final) (exprs : config.exprs = .return_ :: rest)
    (moves : config.stepExpr effects .return_ rest = .step event next)
    (valid : Valid signature next) : Follows effects final arguments config state event next := by
  have lowers := running.lowers
  rw [exprs] at lowers
  obtain ⟨label, depth, outermost, branches, after⟩ :=
    lowers.ofReturn running.here (opaqueSet_tracks signature) (opaqueSet_scalar signature)
  have extends_ := after.extends.trans running.nest.extends
  have jumps : translated effects final arguments state =
      state.jump final.function arguments label.target :=
    step_at [.br label.target] 0 (running.here.branchTo label) extends_.grows rfl rfl running.position
  have member : (⟨.branch, state.block, label.target, carriedValues context.stack label.phis.length⟩ :
      Edge) ∈ final.edges := extends_.edges.subset (List.mem_append_right _ List.mem_cons_self)
  have count := running.nest.length
  have isDepth : config.labels.length - 1 = depth := by omega
  rw [Config.stepExpr, isDepth] at moves
  obtain ⟨rfl, state', jump, related⟩ := running.nest.branches moves settled running.extends
    running.lowers.logged branches.found member rfl rfl (congrArg (carriedValues · _) running.stack)
    running.denotes running.stored running.store valid
  exact follows_one (jumps.trans jump) related

variable (effects) in
/-- The terminator of a block that ends with the comparison of a condition with zero. -/
theorem Running.branchesOn {value : Value} {test : Nat} (ifTrue ifFalse : Nat)
    {kept : List Value} {operands : List Nat} {built : BlockContext Instr}
    (running : Running signature final arguments context inner base (value :: kept) config state)
    (isOperands : config.operands = test :: operands)
    (before : (context.compareZero state.block value (kept ++ base)).function.Grows built.function)
    (same : built.function.body state.block =
      (context.compareZero state.block value (kept ++ base)).function.body state.block)
    (there : built.At state.block)
    (after : (built.emit state.block (.condBr (context.compared value) ifTrue ifFalse)).function.Grows
      final.function) :
    ∃ compared : State Store, translated effects final arguments state = .step none compared ∧
      translated effects final arguments compared =
        compared.jump final.function arguments (if test ≠ 0 then ifTrue else ifFalse) ∧
      compared.block = state.block ∧ compared.slots = state.slots ∧ compared.store = state.store ∧
      Agree context.function.insts.length state.registers compared.registers ∧
      Denotes arguments compared.registers kept operands := by
  have denotes := running.denotes
  rw [isOperands] at denotes
  obtain ⟨value', kept', evaluates, below, split⟩ := List.forall₂_cons_right_iff.mp denotes
  obtain ⟨rfl, rfl⟩ := List.cons.inj split
  obtain ⟨known, _⟩ := running.known
  have bound := running.here.bound
  have agree : Agree context.function.insts.length state.registers
      (state.define context.function.insts.length (if test ≠ 0 then 1 else 0)).registers :=
    agree_set _ (Nat.le_refl _)
  refine ⟨state.define context.function.insts.length (if test ≠ 0 then 1 else 0), ?_, ?_, rfl, rfl, rfl,
    agree, Denotes.update below (fun other member => known other (by simp [member])) agree⟩
  · have at_ : translated effects final arguments state = state.executePlain effects.run arguments
        context.function.insts.length (.icmp .ne value (.null value.type)) :=
      step_at [.plain (.icmp .ne value (.null value.type))] 0 running.here
        (before.trans (((Function.Grows.refl _).append _ _).trans after)) rfl rfl
        running.position
    rw [at_]
    exact executePlain_compare (known value (by simp)) evaluates _
  · have position : state.position + 1 = (built.function.body state.block).length + 0 := by
      rw [same, compareZero, emitAll_function, withStack_function, Function.body_appendAll_self bound,
        running.position]
      simp
    have at_ : translated effects final arguments
          (state.define context.function.insts.length (if test ≠ 0 then 1 else 0)) =
        (state.define context.function.insts.length (if test ≠ 0 then 1 else 0)).execute effects.run
          final.function arguments (built.function.insts.length + 0)
          (.condBr (context.compared value) ifTrue ifFalse) :=
      step_at [.condBr (context.compared value) ifTrue ifFalse] 0 there after rfl rfl position
    have bit : (context.compared value).eval arguments
        (state.registers.set context.function.insts.length (if test ≠ 0 then 1 else 0)) =
          some (if test ≠ 0 then 1 else 0) := Registers.set_same _ _ _
    rw [at_, State.execute, State.define, bit]
    by_cases zero : test = 0 <;> simp [zero]

theorem body_branchOrNext {block target : Nat} (value : Value) (left : List Value)
    (label : BreakoutTarget) (different : target ≠ block) :
    (context.branchOrNext block value left label).function.body target = context.function.body target := by
  refine (Function.body_append_of_ne different).trans ?_
  simp only [BlockContext.branchTo, addEdge_function, addIncomings_function, newBlock_function,
    Function.body_addIncomings, Function.body_newBlock]
  exact Function.body_append_of_ne different

theorem Running.brIf {depth : Nat}
    (running : Running signature final arguments context inner base values config state)
    (settled : Settled final) (exprs : config.exprs = .brIf depth :: rest)
    (moves : config.stepExpr effects (.brIf depth) rest = .step event next)
    (valid : Valid signature next) : Follows effects final arguments config state event next := by
  have lowers := running.lowers
  rw [exprs] at lowers
  obtain ⟨value, left, label, top, branches, after⟩ :=
    lowers.ofBrIf running.here (opaqueSet_tracks signature) (opaqueSet_scalar signature)
  have denotes := running.denotes
  rw [Config.stepExpr] at moves
  cases isOperands : config.operands with
  | nil =>
      rw [isOperands] at moves
      cases moves
  | cons test operands =>
      rw [isOperands] at moves denotes
      dsimp only at moves
      obtain ⟨value', kept, _, _, rfl⟩ := List.forall₂_cons_right_iff.mp denotes
      obtain ⟨rfl, rfl⟩ := List.cons.inj (show value :: left = value' :: (kept ++ base) from
        top.symm.trans running.stack)
      have extends_ := after.extends.trans running.nest.extends
      have bound := running.here.bound
      have compared : (context.compareZero state.block value (kept ++ base)).At state.block :=
        compareZero_at running.here value _
      obtain ⟨middle, compares, jumps, sameBlock, sameSlots, sameStore, agree, below⟩ :=
        running.branchesOn effects label.target context.function.blocks.length isOperands
          (((Function.Grows.refl _).newBlock "brif_next").addIncomings _ _)
          (by simp [BlockContext.branchTo])
          (((compared.newBlock "brif_next").branchTo label).addEdge .arm state.block
            context.function.blocks.length [])
          extends_.grows
      have known := running.known
      have nest := running.nest.update
        (fun other member => known.1 other (List.mem_append_right _ member)) agree
      have stored := running.stored.update known.2 agree
      split at moves
      · rename_i taken
        rw [if_pos taken] at jumps
        have member : (⟨.branch, state.block, label.target,
            carriedValues (kept ++ base) label.phis.length⟩ : Edge) ∈ final.edges :=
          extends_.edges.subset (List.mem_append_left _ (List.mem_append_right _ List.mem_cons_self))
        obtain ⟨rfl, state', jump, related⟩ := nest.branches moves settled running.extends
          running.lowers.logged branches.found member sameBlock.symm rfl rfl below (sameSlots ▸ stored)
          (sameStore.trans running.store) valid
        exact follows_two compares (jumps.trans jump) related
      · rename_i passed
        rw [if_neg passed] at jumps
        obtain ⟨rfl, rfl⟩ := Move.step.inj moves
        have there : (context.branchOrNext state.block value (kept ++ base) label).At
            context.function.blocks.length := branchOrNext_at _ _ _
        have nothing : (context.branchOrNext state.block value (kept ++ base) label).function.body
            context.function.blocks.length = [] := by
          rw [body_branchOrNext value _ label (Nat.ne_of_gt bound), Function.body_eq_nil (Nat.le_refl _)]
        refine follows_two compares (jumps.trans (jump_start settled extends_ there nothing)) ?_
        refine .running ⟨there, ?_, after, nest, rfl, below, sameSlots ▸ stored,
          sameStore.trans running.store, valid⟩
        rw [nothing]
        rfl

/-! ### Tables -/

theorem addTargets_casesOf (built : BlockContext Instr) (switch source i : Nat)
    (labels : List BreakoutTarget) :
    (built.addTargets switch source labels i).function.casesOf switch =
      built.function.casesOf switch ++ (labels.zipIdx i).map fun pair => (pair.2, pair.1.target) := by
  induction labels generalizing built i with
  | nil => simp [BlockContext.addTargets]
  | cons label labels ih =>
      rw [BlockContext.addTargets, ih]
      simp [addTarget, Function.casesOf, Function.addCase, Function.addIncomings]

/-- The case of a switch that an index selects. -/
theorem find_case (labels : List BreakoutTarget) (start index default : Nat) :
    (((labels.zipIdx start).map fun pair => (pair.2, pair.1.target)).find?
      fun case => case.1 == start + index).elim default (·.2) =
        (labels[index]?.map BreakoutTarget.target).getD default := by
  induction labels generalizing start index with
  | nil => rfl
  | cons label labels ih =>
      cases index with
      | zero => simp
      | succ index =>
          have step := ih (start + 1) index
          have same : start + 1 + index = start + (index + 1) := by omega
          rw [same] at step
          simpa using step

/-- The label that an index selects, with its depth. -/
theorem selected_label {popped : BlockContext Instr} {targets : List Nat} {default : Nat} (index : Nat)
    {label : BreakoutTarget} {labels : List BreakoutTarget} (branches : Reaches popped default label)
    (all : List.Forall₂ (Reaches popped) targets labels) :
    ∃ chosen, Reaches popped (targets[index]?.getD default) chosen ∧
      (labels[index]?.map BreakoutTarget.target).getD label.target = chosen.target ∧
      (chosen = label ∨ chosen ∈ labels) := by
  cases found : labels[index]? with
  | none =>
      have beyond : targets[index]? = none := by
        rw [List.getElem?_eq_none_iff] at found ⊢
        rw [all.length_eq]
        exact found
      exact ⟨label, by simpa [beyond] using branches, rfl, .inl rfl⟩
  | some chosen =>
      obtain ⟨inside, isChosen⟩ := List.getElem?_eq_some_iff.mp found
      have insideTargets : index < targets.length := all.length_eq ▸ inside
      have reaches := (List.forall₂_iff_get.mp all).2 index insideTargets inside
      refine ⟨chosen, ?_, rfl, .inr (List.mem_of_getElem? found)⟩
      simpa [List.getElem?_eq_getElem insideTargets, isChosen] using reaches

theorem Running.brTable {targets : List Nat} {default : Nat}
    (running : Running signature final arguments context inner base values config state)
    (settled : Settled final) (exprs : config.exprs = .brTable targets default :: rest)
    (moves : config.stepExpr effects (.brTable targets default) rest = .step event next)
    (valid : Valid signature next) : Follows effects final arguments config state event next := by
  have lowers := running.lowers
  rw [exprs] at lowers
  obtain ⟨value, left, label, labels, top, branches, all, after⟩ :=
    lowers.ofBrTable running.here (opaqueSet_tracks signature) (opaqueSet_scalar signature)
  have denotes := running.denotes
  rw [Config.stepExpr] at moves
  cases isOperands : config.operands with
  | nil =>
      rw [isOperands] at moves
      cases moves
  | cons index operands =>
      rw [isOperands] at moves denotes
      dsimp only at moves
      obtain ⟨value', kept, evaluates, below, rfl⟩ := List.forall₂_cons_right_iff.mp denotes
      obtain ⟨rfl, rfl⟩ := List.cons.inj (show value :: left = value' :: (kept ++ base) from
        top.symm.trans running.stack)
      have extends_ := after.extends.trans running.nest.extends
      obtain ⟨chosen, reaches, target, which⟩ := selected_label index branches.toReaches all
      have started : ((context.startTable state.block value (kept ++ base) label)).function.Grows
          final.function := (addTargets_grows (.refl _) _ _ _ _).trans extends_.grows
      have cases_ : final.function.casesOf context.function.insts.length =
          (labels.zipIdx 0).map fun pair => (pair.2, pair.1.target) := by
        have old : context.function.insts.length < ((context.startTable state.block value (kept ++ base)
            label).addTargets context.function.insts.length state.block labels 0).function.insts.length := by
          refine Nat.lt_of_lt_of_le ?_ (addTargets_grows (.refl _) _ _ _ _).insts.length_le
          simp [startTable, BlockContext.branchTo]
        rw [extends_.cases _ old, addTargets_casesOf]
        have none : (context.startTable state.block value (kept ++ base) label).function.casesOf
            context.function.insts.length = [] :=
          running.lowers.logged.traced.numbered.casesOf_new
        rw [none, List.nil_append]
      have jumps : translated effects final arguments state =
          state.jump final.function arguments chosen.target := by
        have at_ : translated effects final arguments state = state.execute effects.run final.function
            arguments (((context.withStack (kept ++ base)).branchTo state.block
              label).function.insts.length + 0) (.switch value label.target) :=
          step_at [.switch value label.target] 0 ((running.here.withStack _).branchTo label) started rfl
            rfl running.position
        have select := find_case labels 0 index label.target
        rw [Nat.zero_add] at select
        rw [at_, State.execute, evaluates]
        show state.jump final.function arguments (((final.function.casesOf
          context.function.insts.length).find? fun case => case.1 == index).elim label.target (·.2)) = _
        rw [cases_, select, target]
      have member : ∃ kind, (⟨kind, state.block, chosen.target,
          carriedValues (kept ++ base) chosen.phis.length⟩ : Edge) ∈ final.edges := by
        have edges := extends_.edges
        rw [addTargets_edges] at edges
        rcases which with rfl | inLabels
        · exact ⟨.branch, edges.subset (List.mem_append_left _ (List.mem_append_right _
            List.mem_cons_self))⟩
        · exact ⟨.tableCase, edges.subset (List.mem_append_right _ (List.mem_map_of_mem inLabels))⟩
      obtain ⟨kind, member⟩ := member
      obtain ⟨rfl, state', jump, related⟩ := running.nest.branches moves settled running.extends
        running.lowers.logged reaches.found member rfl rfl rfl below running.stored running.store valid
      exact follows_one (jumps.trans jump) related

end Branches

end WasmToLlvm.Block
