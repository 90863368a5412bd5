import WasmToLlvm.Block.Transfers

/-!
# Constructs

The translated function follows the beginnings and ends of blocks, loops and
conditionals. A block is entered and a loop is left without an instruction.
-/

set_option autoImplicit false

namespace WasmToLlvm.Block

open Llvm Wasm Library BlockContext

variable {Instr Store : Type} {signature : Instr → Option FuncSignature}
  {effects : Effects Instr Store signature} {final context inner : BlockContext Instr}
  {arguments : List Nat} {base values : List Value} {config next : Config Instr Store}
  {state state' : State Store} {event : Option (Event Instr)} {rest : List (Expr Instr)}

section Entries

theorem enter_moves {arity params : Nat} {again : Option (List (Expr Instr))}
    {body : List (Expr Instr)} (moves : config.enter arity params again body rest = .step event next) :
    params ≤ config.operands.length ∧ event = none ∧ next = { config with
      exprs := body
      operands := config.operands.take params
      labels := ⟨arity, again, rest, config.operands.drop params⟩ :: config.labels } := by
  rw [Config.enter] at moves
  split at moves
  · rename_i enough
    obtain ⟨rfl, rfl⟩ := Move.step.inj moves
    exact ⟨enough, rfl, rfl⟩
  · cases moves

/-- The values that a construct takes stand for its operands, those below for the rest. -/
theorem Denotes.split {registers : Registers} {operands : List Nat} {taken below : List Value}
    (denotes : Denotes arguments registers (taken ++ below) operands) {params : Nat}
    (count : taken.length = params) :
    Denotes arguments registers taken (operands.take params) ∧
      Denotes arguments registers below (operands.drop params) := by
  subst count
  have front := List.forall₂_take taken.length denotes
  have back := List.forall₂_drop taken.length denotes
  rw [List.take_left] at front
  rw [List.drop_left] at back
  exact ⟨front, back⟩

theorem body_startBlock {block target : Nat} {decl : BlockDeclaration} {types : List Ty}
    (bound : target < context.function.blocks.length) :
    (context.startBlock block decl types).function.body target = context.function.body target :=
  (Function.body_appendAll_of_ne (Nat.ne_of_lt bound)).trans (Function.body_newBlock _ _ _)

theorem Running.block {decl : BlockDeclaration} {body : List (Expr Instr)}
    (running : Running signature final arguments context inner base values config state)
    (exprs : config.exprs = .block decl body :: rest)
    (moves : config.stepExpr effects (.block decl body) rest = .step event next)
    (valid : Valid signature next) : Follows effects final arguments config state event next := by
  have lowers := running.lowers
  rw [exprs] at lowers
  obtain ⟨types, taken, below, bodyEnd, resume, all, split, count, inside, exit, labels, locals, tail⟩ :=
    lowers.ofBlock running.here (opaqueSet_tracks signature) (opaqueSet_scalar signature)
  obtain ⟨_, rfl, rfl⟩ := enter_moves moves
  rw [running.stack, ← List.append_assoc] at split
  obtain rfl := List.append_cancel_right split
  obtain ⟨front, back⟩ := running.denotes.split count
  refine follows_none ?_ (.running ⟨startBlock_at _ _ running.here, ?_, inside, ?_, ?_, front,
    running.stored, running.store, valid⟩)
  · simp only [rank, exprs, exprsSize, exprSize, List.map_cons, List.sum_cons]
    omega
  · rw [body_startBlock running.here.bound]
    exact running.position
  · show Nest signature final arguments state.registers context.locals bodyEnd ([] ++ (below ++ base)) _ _
    exact .exit exit tail (exitLabel_sized _ _ _ all).symm rfl labels locals back running.nest
  · rw [← List.append_assoc]
    exact running.stack

theorem Running.loop {decl : BlockDeclaration} {body : List (Expr Instr)}
    (running : Running signature final arguments context inner base values config state)
    (settled : Settled final) (exprs : config.exprs = .loop decl body :: rest)
    (moves : config.stepExpr effects (.loop decl body) rest = .step event next)
    (valid : Valid signature next) : Follows effects final arguments config state event next := by
  have lowers := running.lowers
  rw [exprs] at lowers
  obtain ⟨types, taken, below, bodyEnd, all, split, count, inside, tail⟩ :=
    lowers.ofLoop running.here (opaqueSet_tracks signature) (opaqueSet_scalar signature)
  obtain ⟨_, rfl, rfl⟩ := enter_moves moves
  have left : bodyEnd.Extends (bodyEnd.withLabels context.blockStack) := (Extends.refl _).congr rfl rfl
  have extends_ := (inside.extends.trans (left.trans tail.extends)).trans running.nest.extends
  have bound := running.here.bound
  -- the entries of the phis of a loop with parameters do not name the block before it
  have paramless : decl.params.length = 0 := by
    have member : (⟨.loopEntry, state.block, context.function.blocks.length,
        carriedValues context.stack decl.params.length⟩ : Edge) ∈ final.edges :=
      extends_.edges.subset (List.mem_append_right _ List.mem_cons_self)
    rcases settled.faithful _ member with empty | named
    · have size := congrArg List.length empty
      rw [split, carriedValues_length (by simp [count])] at size
      exact size
    · exact absurd (Option.some.inj named) (Nat.ne_of_gt bound)
  obtain rfl : types = [] := by
    have size := all.length_eq
    rw [List.length_reverse, paramless] at size
    exact List.eq_nil_of_length_eq_zero size.symm
  obtain rfl : taken = [] := List.eq_nil_of_length_eq_zero (count.trans paramless)
  rw [List.nil_append] at split
  have there : (context.startLoop state.block decl []).At context.function.blocks.length :=
    startLoop_at _ _
  have nothing : (context.startLoop state.block decl []).function.body context.function.blocks.length =
      [] := by
    show ((context.function.newBlock "loop_entry").append state.block
      (.br context.function.blocks.length)).body _ = []
    rw [Function.body_append_of_ne (Nat.ne_of_gt bound), Function.body_newBlock,
      Function.body_eq_nil (Nat.le_refl _)]
  have jumps : translated effects final arguments state =
      state.jump final.function arguments context.function.blocks.length := by
    have entered : (context.branchToLoop state.block decl).function.Grows
        (context.startLoop state.block decl []).function :=
      ((Function.Grows.refl _).appendAll _ _).addIncomings _ _
    refine step_at [.br context.function.blocks.length] 0 ((running.here.newBlock "loop_entry").addEdge
      .loopEntry state.block context.function.blocks.length (carriedValues context.stack
        decl.params.length)) (entered.trans extends_.grows) rfl rfl ?_
    rw [running.position]
    simp
  obtain rfl := List.append_cancel_right (running.stack.symm.trans split)
  have stack : (context.startLoop state.block decl []).stack = [] ++ (values ++ base) := split
  refine follows_one (jumps.trans (jump_start settled extends_ there nothing)) (.running ⟨there, ?_, inside,
    ?_, stack, ?_, running.stored, running.store, valid⟩)
  · rw [nothing]
    rfl
  · refine .loop there nothing split rfl inside tail paramless rfl rfl rfl ?_ running.nest
    show Denotes arguments state.registers values (config.operands.drop decl.params.length)
    rw [paramless]
    exact running.denotes
  · rw [paramless, List.take_zero]
    exact .nil

theorem body_startThen {block : Nat} (value : Value) (left : List Value) (decl : BlockDeclaration)
    (types : List Ty) (here : context.At block) :
    (context.startThen block value left decl types).function.body context.function.blocks.length = [] := by
  refine (Function.body_appendAll_of_ne (by omega)).trans ?_
  rw [moveTo_function, body_branchToArms value left
    (Nat.ne_of_gt here.bound), Function.body_eq_nil (Nat.le_refl _)]

theorem Running.if_ {decl : BlockDeclaration} {body other : List (Expr Instr)}
    (running : Running signature final arguments context inner base values config state)
    (settled : Settled final) (exprs : config.exprs = .if_ decl body other :: rest)
    (moves : config.stepExpr effects (.if_ decl body other) rest = .step event next)
    (valid : Valid signature next) : Follows effects final arguments config state event next := by
  have lowers := running.lowers
  rw [exprs] at lowers
  obtain @⟨value, types, taken, below, junk, label, started, first, startedElse, second, resume, all, split,
    count, rfl, isLabel, thenArm, elseArm, elseStack, elseAt, elseBody, elseLabels, elseLocals, between,
    thenExit, elseExit, labels, locals, tail⟩ :=
    lowers.ofIf running.here (opaqueSet_tracks signature) (opaqueSet_scalar signature)
  have denotes := running.denotes
  rw [Config.stepExpr] at moves
  cases isOperands : config.operands with
  | nil =>
      rw [isOperands] at moves
      cases moves
  | cons test operands =>
      rw [isOperands] at moves denotes
      dsimp only at moves
      obtain ⟨_, rfl, rfl⟩ := enter_moves moves
      obtain ⟨value', kept, _, _, rfl⟩ := List.forall₂_cons_right_iff.mp denotes
      rw [← List.append_assoc] at split
      obtain ⟨rfl, same⟩ := List.cons.inj (show value' :: (kept ++ base) = value ::
        ((taken ++ below) ++ base) from running.stack.symm.trans split)
      obtain rfl := List.append_cancel_right same
      have sized : label.phis.length = decl.results.length := isLabel ▸ exitLabel_sized _ _ _ all
      have beyond := tail.extends.trans running.nest.extends
      have extendsElse := (elseArm.extends.trans elseExit.extends_).trans beyond
      have extendsThen := (thenArm.extends.trans between).trans extendsElse
      have arms : (context.branchToArms state.block value' ((taken ++ below) ++ base)).function.Grows
          final.function := by
        rw [List.append_assoc]
        exact ((Function.Grows.refl _).appendAll _ _).trans extendsThen.grows
      have compared : (context.compareZero state.block value' ((taken ++ below) ++ base)).At state.block :=
        compareZero_at running.here value' _
      obtain ⟨middle, compares, jumps, sameBlock, sameSlots, sameStore, agree, denotesKept⟩ :=
        running.branchesOn effects context.function.blocks.length (context.function.blocks.length + 1)
          isOperands ((((Function.Grows.refl _).newBlock "ifblk").newBlock "elseblk").newBlock "ifblk_exit")
          (by simp) (((((compared.newBlock "ifblk").newBlock "elseblk").newBlock "ifblk_exit").addEdge .arm
            state.block context.function.blocks.length []).addEdge .arm state.block
              (context.function.blocks.length + 1) []) arms
      have known := running.known
      have nest := running.nest.update
        (fun other member => known.1 other (List.mem_append_right _ member)) agree
      have stored := running.stored.update known.2 agree
      obtain ⟨front, back⟩ := denotesKept.split count
      have stored' : Stored context.locals middle.registers middle.slots config.locals :=
        sameSlots ▸ stored
      have arity : decl.results.length = label.phis.length := sized.symm
      by_cases zero : test = 0
      · rw [if_neg (not_not.mpr zero)] at jumps valid ⊢
        have nestElse : Nest signature final arguments middle.registers startedElse.locals second
            (junk ++ (below ++ base)) startedElse.blockStack
            (⟨decl.results.length, none, rest, operands.drop decl.params.length⟩ :: config.labels) := by
          rw [elseLocals, elseLabels]
          exact .exit elseExit tail arity rfl labels locals back nest
        refine follows_two compares (jumps.trans (jump_start settled extendsElse elseAt elseBody))
          (.running ⟨elseAt, ?_, elseArm, nestElse, elseStack, front, elseLocals ▸ stored',
            sameStore.trans running.store, valid⟩)
        rw [elseBody]
        rfl
      · rw [if_pos zero] at jumps valid ⊢
        have there : (context.startThen state.block value' (taken ++ (below ++ base)) decl types).At
            context.function.blocks.length := startThen_at _ _ _ _
        have nothing := body_startThen value' (taken ++ (below ++ base)) decl types running.here
        have nestThen : Nest signature final arguments middle.registers context.locals first
            ([] ++ (below ++ base)) (label :: context.blockStack)
            (⟨decl.results.length, none, rest, operands.drop decl.params.length⟩ :: config.labels) :=
          .exit thenExit tail arity rfl labels locals back nest
        rw [isLabel] at nestThen
        refine follows_two compares (jumps.trans (jump_start settled extendsThen there nothing))
          (.running ⟨there, ?_, thenArm, nestThen, rfl, front, stored', sameStore.trans running.store, valid⟩)
        rw [nothing]
        rfl

end Entries

/-! ## Ends -/

section Ends

/-- At the end of a body that is left for good stand its results. -/
theorem ended_operands {entry : Label Instr} {entries : List (Label Instr)} (valid : Valid signature config)
    (ended : config.exprs = []) (labels : config.labels = entry :: entries) (once : entry.again = none) :
    config.operands.length = entry.arity := by
  obtain @⟨validation, types, after, results, outside, live, count, checked, closed, _⟩ := valid
  rw [ended] at checked
  obtain rfl := Option.some.inj checked
  rw [labels] at outside
  cases outside with
  | label _ _ _ _ _ arity leaves =>
      rw [count, live.closeFrame closed, arity, leaves once]

theorem leave_moves {entry : Label Instr} {entries : List (Label Instr)}
    (labels : config.labels = entry :: entries) (moves : config.leave = .step event next) :
    event = none ∧ next = { config with
      exprs := entry.rest, operands := config.operands ++ entry.below, labels := entries } := by
  rw [Config.leave, labels] at moves
  obtain ⟨rfl, rfl⟩ := Move.step.inj moves
  exact ⟨rfl, rfl⟩

variable (effects) in
/-- The edge from the end of a body, and its branch. -/
theorem Running.flows {label : BreakoutTarget}
    (running : Running signature final arguments context inner base values config state)
    (flows : (context.flowInto label.target label.phis).Extends final) :
    (⟨.fallThrough, state.block, label.target, carriedValues (values ++ base) label.phis.length⟩ : Edge) ∈
        final.edges ∧
      translated effects final arguments state = state.jump final.function arguments label.target := by
  rw [flowInto, running.here.getInsertBlock, running.stack] at flows
  refine ⟨flows.edges.subset (List.mem_append_right _ List.mem_cons_self), ?_⟩
  exact step_at [.br label.target] 0 ((running.here.addIncomings _ _).addEdge .fallThrough state.block
    label.target (carriedValues (values ++ base) label.phis.length)) flows.grows rfl rfl running.position

/-- The way out of a construct that is left for good. -/
theorem Nest.flows {registers : Registers} {locals : List AllocaInst} {label : BreakoutTarget}
    {labels : List BreakoutTarget} {entry : Label Instr} {entries : List (Label Instr)}
    (nest : Nest signature final arguments registers locals inner base (label :: labels)
      (entry :: entries)) (once : entry.again = none) :
    (inner.flowInto label.target label.phis).Extends final := by
  cases nest with
  | func exit extends_ => exact exit.flows.trans extends_
  | exit exit tail _ _ _ _ _ outer => exact exit.flows.trans (tail.extends.trans outer.extends)
  | loop _ _ _ _ _ _ _ again =>
      rw [once] at again
      cases again

/-- A body is left by a jump. -/
theorem Running.leaveExit {label : BreakoutTarget} {labels : List BreakoutTarget} {entry : Label Instr}
    {entries : List (Label Instr)}
    (running : Running signature final arguments context inner base values config state)
    (settled : Settled final) (ended : config.exprs = []) (atEnd : inner = context)
    (isLabels : context.blockStack = label :: labels) (isEntries : config.labels = entry :: entries)
    (once : entry.again = none) (moves : config.leave = .step event next) (valid : Valid signature next) :
    Follows effects final arguments config state event next := by
  subst atEnd
  obtain ⟨rfl, rfl⟩ := leave_moves isEntries moves
  have nest := running.nest
  rw [isLabels, isEntries] at nest
  have height := ended_operands running.valid ended isEntries once
  have enough : label.phis.length ≤ values.length := by
    exact Nat.le_of_eq (nest.arity.symm.trans (height.symm.trans running.denotes.length_eq.symm))
  have lands : landing config config.operands entry entries = { config with
      exprs := entry.rest, operands := config.operands ++ entry.below, labels := entries } := by
    rw [landing, once, ← height, List.take_length]
  obtain ⟨member, jumps⟩ := running.flows effects (nest.flows once)
  rw [carriedValues_append enough] at member
  have inStack : label ∈ inner.blockStack := isLabels ▸ List.mem_cons_self
  rw [← lands] at valid ⊢
  obtain ⟨state', jump, related⟩ := nest.arrive settled (running.extends.phiAt running.lowers.logged inStack)
    (running.lowers.logged.labelled label inStack).ids_nodup member rfl rfl rfl running.denotes
    (Nat.le_of_eq height.symm) running.stored running.store valid
  exact follows_one (jumps.trans jump) related

theorem Running.leave
    (running : Running signature final arguments context inner base values config state)
    (settled : Settled final) (ended : config.exprs = []) (moves : config.leave = .step event next)
    (valid : Valid signature next) : Follows effects final arguments config state event next := by
  have lowers := running.lowers
  rw [ended] at lowers
  have atEnd := lowers.nil
  have nest := running.nest
  cases isEntries : config.labels with
  | nil =>
      rw [Config.leave, isEntries] at moves
      cases moves
  | cons entry entries =>
      rw [isEntries] at nest
      cases isLabels : context.blockStack with
      | nil =>
          rw [isLabels] at nest
          cases nest
      | cons label labels =>
          cases again : entry.again with
          | none => exact running.leaveExit settled ended atEnd isLabels isEntries again moves valid
          | some body =>
              subst atEnd
              obtain ⟨rfl, rfl⟩ := leave_moves isEntries moves
              rw [isLabels] at nest
              cases nest with
              | func _ _ _ _ _ once =>
                  rw [again] at once
                  cases once
              | exit _ _ _ once =>
                  rw [again] at once
                  cases once
              | @loop opened _ after _ _ _ _ _ below base there nothing stack phis run tail arity _ stays same
                  denotes outer =>
                  have stack : inner.stack = (values ++ below) ++ base := by
                    rw [running.stack, List.append_assoc]
                  refine follows_none ?_ (.running ⟨running.here.withLabels labels, running.position, tail,
                    outer, stack, running.denotes.append denotes, running.stored, running.store, valid⟩)
                  simp only [rank, ended, isEntries, exprsSize, List.map_cons, List.sum_cons]
                  omega

end Ends

end WasmToLlvm.Block
