import WasmToLlvm.Block.Relation

/-!
# Straight-line steps

The translated function follows the expressions that do not transfer control. Each
emits at most two instructions at the end of the current block.
-/

set_option autoImplicit false

namespace WasmToLlvm.Block

open Llvm Wasm Library BlockContext

variable {Instr Store : Type} {signature : Instr → Option FuncSignature}
  {effects : Effects Instr Store signature} {final context inner : BlockContext Instr}
  {arguments : List Nat} {base values : List Value} {config next : Config Instr Store}
  {state state' : State Store} {event : Option (Event Instr)} {rest : List (Expr Instr)}

theorem Running.nop (running : Running signature final arguments context inner base values config state)
    (exprs : config.exprs = .nop :: rest) (moves : config.stepExpr effects .nop rest = .step event next)
    (valid : Valid signature next) : Follows effects final arguments config state event next := by
  obtain ⟨after, ran, lowers⟩ := running.visited exprs rfl
  obtain ⟨_, rfl⟩ := Prod.mk.inj (Except.ok.inj ran)
  obtain ⟨rfl, rfl⟩ := Move.step.inj moves
  refine follows_none ?_ (running.stay lowers agree_refl running.stack running.denotes running.stored
    running.store valid)
  simp only [rank, exprs, exprsSize, exprSize]
  omega

theorem Running.drop (running : Running signature final arguments context inner base values config state)
    (exprs : config.exprs = .drop :: rest) (moves : config.stepExpr effects .drop rest = .step event next)
    (valid : Valid signature next) : Follows effects final arguments config state event next := by
  obtain ⟨after, ran, lowers⟩ := running.visited exprs rfl
  obtain ⟨value, below, top, rfl⟩ := visitDrop_ok.mp ran
  have denotes := running.denotes
  rw [Config.stepExpr] at moves
  cases isOperands : config.operands with
  | nil =>
      rw [isOperands] at moves
      cases moves
  | cons operand operands =>
      rw [isOperands] at moves denotes
      obtain ⟨rfl, rfl⟩ := Move.step.inj moves
      obtain ⟨value', kept, _, deeper, rfl⟩ := List.forall₂_cons_right_iff.mp denotes
      obtain ⟨rfl, rfl⟩ := List.cons.inj (show value :: below = value' :: (kept ++ base) from
        top.symm.trans running.stack)
      refine follows_none ?_ (running.stay lowers agree_refl rfl deeper running.stored running.store valid)
      simp only [rank, exprs, exprsSize, exprSize]
      omega

theorem Running.localGet {index : Nat}
    (running : Running signature final arguments context inner base values config state)
    (exprs : config.exprs = .localGet index :: rest)
    (moves : config.stepExpr effects (.localGet index) rest = .step event next)
    (valid : Valid signature next) : Follows effects final arguments config state event next := by
  obtain ⟨after, ran, lowers⟩ := running.visited exprs rfl
  obtain ⟨target, found, rfl⟩ := visitLocalGet_ok.mp ran
  have stored := running.stored
  rw [Config.stepExpr] at moves
  cases isValue : config.locals[index]? with
  | none =>
      rw [isValue] at moves
      cases moves
  | some value =>
      rw [isValue] at moves
      obtain ⟨rfl, rfl⟩ := Move.step.inj moves
      have address : target.value.eval arguments state.registers = some index := stored.addresses found
      have slot : state.slots[index]?.join = some value := by
        rw [stored.slots, List.getElem?_map, isValue]
        rfl
      have loads : translated effects final arguments state = .step none
          (state.define context.function.insts.length value) := by
        rw [running.plain lowers 0 (.load target.allocatedType target.value) rfl rfl rfl,
          State.executePlain, address, Option.bind_some, slot]
        rfl
      have agree : Agree context.function.insts.length state.registers
        (state.registers.set context.function.insts.length value) := agree_set value (Nat.le_refl _)
      obtain ⟨known, knownLocals⟩ := running.known
      have pushed : Denotes arguments (state.registers.set context.function.insts.length value)
          (.inst context.function.insts.length target.allocatedType :: values)
          (value :: config.operands) :=
        .cons (Registers.set_same _ _ _)
          (running.denotes.update (fun value member => known value (List.mem_append_left _ member)) agree)
      exact follows_one loads (running.stay lowers agree (congrArg (_ :: ·) running.stack) pushed
        (stored.update knownLocals agree) running.store valid)

theorem Running.stores (running : Running signature final arguments context inner base values config state)
    {value : Value} {operand index : Nat} {target : AllocaInst}
    (found : context.locals[index]? = some target)
    (denotes : value.eval arguments state.registers = some operand)
    (inside : index < config.locals.length) (id : Nat) :
    state.executePlain effects.run arguments id (.store value target.value) =
      .step none { state with
        position := state.position + 1, slots := state.slots.set index (some operand) } := by
  have address : target.value.eval arguments state.registers = some index := running.stored.addresses found
  have bound : index < state.slots.length := by
    rw [running.stored.slots, List.length_map]
    exact inside
  rw [State.executePlain, denotes, address]
  exact if_pos bound

theorem Running.localSet {index : Nat}
    (running : Running signature final arguments context inner base values config state)
    (exprs : config.exprs = .localSet index :: rest)
    (moves : config.stepExpr effects (.localSet index) rest = .step event next)
    (valid : Valid signature next) : Follows effects final arguments config state event next := by
  obtain ⟨after, ran, lowers⟩ := running.visited exprs rfl
  obtain ⟨value, below, target, top, found, rfl⟩ := visitLocalSet_ok.mp ran
  have denotes := running.denotes
  rw [Config.stepExpr] at moves
  cases isOperands : config.operands with
  | nil =>
      rw [isOperands] at moves
      cases moves
  | cons operand operands =>
      rw [isOperands] at moves denotes
      dsimp only at moves
      split at moves
      · rename_i inside
        obtain ⟨rfl, rfl⟩ := Move.step.inj moves
        obtain ⟨value', kept, evaluates, deeper, rfl⟩ := List.forall₂_cons_right_iff.mp denotes
        obtain ⟨rfl, rfl⟩ := List.cons.inj (show value :: below = value' :: (kept ++ base) from
          top.symm.trans running.stack)
        have stores : translated effects final arguments state = .step none { state with
            position := state.position + 1, slots := state.slots.set index (some operand) } := by
          rw [running.plain lowers 0 (.store value target.value) rfl rfl rfl]
          exact running.stores found evaluates inside _
        exact follows_one stores (running.stay lowers agree_refl rfl deeper
          (running.stored.set index operand) running.store valid)
      · cases moves

theorem Running.localTee {index : Nat}
    (running : Running signature final arguments context inner base values config state)
    (exprs : config.exprs = .localTee index :: rest)
    (moves : config.stepExpr effects (.localTee index) rest = .step event next)
    (valid : Valid signature next) : Follows effects final arguments config state event next := by
  obtain ⟨after, ran, lowers⟩ := running.visited exprs rfl
  obtain ⟨value, below, target, top, found, rfl⟩ := visitLocalTee_ok.mp ran
  have denotes := running.denotes
  rw [Config.stepExpr] at moves
  cases isOperands : config.operands with
  | nil =>
      rw [isOperands] at moves
      cases moves
  | cons operand operands =>
      rw [isOperands] at moves denotes
      dsimp only at moves
      split at moves
      · rename_i inside
        obtain ⟨rfl, rfl⟩ := Move.step.inj moves
        obtain ⟨value', kept, evaluates, _, rfl⟩ := List.forall₂_cons_right_iff.mp denotes
        obtain ⟨rfl, _⟩ := List.cons.inj (show value :: below = value' :: (kept ++ base) from
          top.symm.trans running.stack)
        have stores : translated effects final arguments state = .step none { state with
            position := state.position + 1, slots := state.slots.set index (some operand) } := by
          rw [running.plain lowers 0 (.store value target.value) rfl rfl rfl]
          exact running.stores found evaluates inside _
        exact follows_one stores (running.stay lowers agree_refl running.stack denotes
          (running.stored.set index operand) running.store valid)
      · cases moves

/-- The comparison of a condition with zero. -/
theorem executePlain_compare {value : Value} {operand count : Nat} (known : value.Known count)
    (evaluates : value.eval arguments state.registers = some operand) (id : Nat) :
    (state.executePlain effects.run arguments id (.icmp .ne value (.null value.type)) :
      State.Next Instr Store) = .step none (state.define id (if operand ≠ 0 then 1 else 0)) := by
  obtain ⟨width, isWidth⟩ := Option.isSome_iff_exists.mp known.scalar
  rw [State.executePlain, isWidth, evaluates]
  simp [Value.eval, IntPredicate.holds]

theorem comparison_scalar {type : Ty} (scalar : type.scalarWidth?.isSome) :
    type.comparison.scalarWidth? = some 1 := by
  cases type <;> first | rfl | cases scalar

theorem Running.select {resultType : Option ValType}
    (running : Running signature final arguments context inner base values config state)
    (exprs : config.exprs = .select resultType :: rest)
    (moves : config.stepExpr effects (.select resultType) rest = .step event next)
    (valid : Valid signature next) : Follows effects final arguments config state event next := by
  obtain ⟨after, ran, lowers⟩ := running.visited exprs rfl
  obtain ⟨condition, right, left, below, top, rfl⟩ := visitSelectExpr_ok.mp ran
  have denotes := running.denotes
  rw [Config.stepExpr] at moves
  rcases isOperands : config.operands with _ | ⟨test, _ | ⟨second, _ | ⟨first, operands⟩⟩⟩
  iterate 3
    rw [isOperands] at moves
    cases moves
  rw [isOperands] at moves denotes
  obtain ⟨rfl, rfl⟩ := Move.step.inj moves
  obtain ⟨condition', belowTest, evalTest, denotesTest, rfl⟩ := List.forall₂_cons_right_iff.mp denotes
  obtain ⟨right', belowRight, evalRight, denotesRight, rfl⟩ :=
    List.forall₂_cons_right_iff.mp denotesTest
  obtain ⟨left', kept, evalLeft, deeper, rfl⟩ := List.forall₂_cons_right_iff.mp denotesRight
  have split := top.symm.trans running.stack
  simp only [List.cons_append, List.cons.injEq] at split
  obtain ⟨rfl, rfl, rfl, rfl⟩ := split
  obtain ⟨known, knownLocals⟩ := running.known
  have knownTest := known condition (by simp)
  have compares : translated effects final arguments state = .step none
      (state.define context.function.insts.length (if test ≠ 0 then 1 else 0)) := by
    rw [running.plain lowers 0 (.icmp .ne condition (.null condition.type)) rfl rfl rfl]
    exact executePlain_compare knownTest evalTest _
  let compared := state.define context.function.insts.length (if test ≠ 0 then 1 else 0)
  have agree : Agree context.function.insts.length state.registers compared.registers :=
    agree_set _ (Nat.le_refl _)
  have same : ∀ value ∈ condition :: right :: left :: kept,
      value.eval arguments compared.registers = value.eval arguments state.registers :=
    fun value member => Value.eval_congr fun id is =>
      agree id ((known value (List.mem_append_left _ member)).older id is)
  have selects : translated effects final arguments compared = .step none
      (compared.define (context.function.insts.length + 1) (if test ≠ 0 then first else second)) := by
    have width : (Value.inst context.function.insts.length condition.type.comparison).type.scalarWidth? =
      some 1 := comparison_scalar knownTest.scalar
    have bit : (Value.inst context.function.insts.length condition.type.comparison).eval arguments
      compared.registers = some (if test ≠ 0 then 1 else 0) := Registers.set_same _ _ _
    have at_ : translated effects final arguments compared = compared.executePlain effects.run arguments
        (context.function.insts.length + 1)
        (.select (.inst context.function.insts.length condition.type.comparison) left right) :=
      running.plain lowers 1 _ rfl rfl rfl
    rw [at_, State.executePlain, width, bit, same left (by simp), same right (by simp), evalLeft,
      evalRight]
    by_cases zero : test = 0 <;> simp [zero]
  have agreeAll : Agree context.function.insts.length state.registers
      (compared.define (context.function.insts.length + 1)
        (if test ≠ 0 then first else second)).registers :=
    agree.trans (agree_set _ (Nat.le_succ _))
  have pushed : Denotes arguments (compared.define (context.function.insts.length + 1)
        (if test ≠ 0 then first else second)).registers
      (.inst (context.function.insts.length + 1) left.type :: kept)
      ((if test ≠ 0 then first else second) :: operands) :=
    .cons (Registers.set_same _ _ _) (Denotes.update deeper
      (fun value member => known value (by simp [member])) agreeAll)
  exact follows_two compares selects (running.stay lowers agreeAll rfl pushed
    (running.stored.update knownLocals agreeAll) running.store valid)

variable (effects) in
/-- The operation of a straight-line instruction, with its operands from the stack. -/
theorem Running.operation {instr : Instr} {type : FuncSignature}
    (running : Running signature final arguments context inner base values config state)
    (exprs : config.exprs = .instr instr :: rest) (found : signature instr = some type)
    (enough : type.params.length ≤ config.operands.length) :
    ∃ types after, Convert type.results types ∧ types.length ≤ 1 ∧ after.code.length = 1 ∧
      after.stack = (resultValues context.function.insts.length types ++
        values.drop type.params.length) ++ base ∧
      Lowers (I := opaqueSet Instr signature) signature base (context.afterVisit state.block after) rest
        inner ∧
      translated effects final arguments state =
        match effects.run instr (config.operands.take type.params.length).reverse state.store with
        | none => .halt (.trapped state.store)
        | some (results, store) =>
            .step (some (instr, (config.operands.take type.params.length).reverse)) { state with
              position := state.position + 1
              registers :=
                results.head?.elim state.registers (state.registers.set context.function.insts.length)
              store } := by
  obtain ⟨after, ran, lowers⟩ := running.visited exprs rfl
  obtain ⟨type', types, same, _, all, single, rfl⟩ := visitOpaque_ok ran
  obtain rfl := Option.some.inj (found.symm.trans same)
  have count : type.params.length ≤ values.length := running.denotes.length_eq ▸ enough
  have stack : context.stack = values ++ base := running.stack
  have dropped : context.stack.drop type.params.length = values.drop type.params.length ++ base := by
    rw [stack, List.drop_append_of_le_length count]
  have taken : context.stack.take type.params.length = values.take type.params.length := by
    rw [stack, List.take_append_of_le_length count]
  have evaluates : (values.take type.params.length).reverse.mapM (Value.eval arguments state.registers) =
      some (config.operands.take type.params.length).reverse :=
    mapM_eq_some_iff.mpr (List.forall₂_reverse_iff.mpr (List.forall₂_take _ running.denotes))
  refine ⟨types, _, all, single, rfl, ?_, lowers, ?_⟩
  · show resultValues _ types ++ context.stack.drop type.params.length = _
    rw [dropped, List.append_assoc]
    rfl
  · have at_ : translated effects final arguments state = state.executePlain effects.run arguments
        context.function.insts.length
        (.op instr (types.headD .void) (context.stack.take type.params.length).reverse) :=
      running.plain lowers 0 _ rfl rfl rfl
    rw [at_, taken]
    exact State.executePlain_op _ _ evaluates

theorem Running.instr {instr : Instr}
    (running : Running signature final arguments context inner base values config state)
    (exprs : config.exprs = .instr instr :: rest)
    (moves : config.stepExpr effects (.instr instr) rest = .step event next)
    (valid : Valid signature next) : Follows effects final arguments config state event next := by
  rw [Config.stepExpr, Config.perform] at moves
  cases found : signature instr with
  | none =>
      rw [found] at moves
      cases moves
  | some type =>
  rw [found] at moves
  dsimp only at moves
  split at moves
  · rename_i enough
    obtain ⟨types, after, all, single, size, stack, lowers, operation⟩ :=
      running.operation effects exprs found enough
    cases ran : effects.run instr (config.operands.take type.params.length).reverse config.store with
    | none =>
        rw [ran] at moves
        cases moves
    | some outcome =>
        obtain ⟨results, store⟩ := outcome
        rw [ran] at moves
        obtain ⟨rfl, rfl⟩ := Move.step.inj moves
        rw [running.store, ran] at operation
        dsimp only at operation
        obtain ⟨known, knownLocals⟩ := running.known
        have count : types.length = results.length :=
          all.length_eq.symm.trans (effects.sized found ran).symm
        have agree : Agree context.function.insts.length state.registers
            (results.head?.elim state.registers
              (state.registers.set context.function.insts.length)) := by
          cases results with
          | nil => exact agree_refl
          | cons value results => exact agree_set _ (Nat.le_refl _)
        have below : Denotes arguments state.registers (values.drop type.params.length)
            (config.operands.drop type.params.length) := List.forall₂_drop _ running.denotes
        have kept := Denotes.update below (fun value member =>
          known value (List.mem_append_left _ (List.mem_of_mem_drop member))) agree
        have pushed : Denotes arguments
            (results.head?.elim state.registers (state.registers.set context.function.insts.length))
            (resultValues context.function.insts.length types) results.reverse := by
          rcases types with _ | ⟨converted, _ | ⟨_, _⟩⟩
          · rw [List.length_nil, eq_comm, List.length_eq_zero_iff] at count
            subst count
            exact .nil
          · rw [List.length_singleton, eq_comm, List.length_eq_one_iff] at count
            obtain ⟨value, rfl⟩ := count
            exact .cons (Registers.set_same _ _ _) .nil
          · simp at single
        have related := running.stay lowers agree stack (pushed.append kept)
          (running.stored.update knownLocals agree) (rfl : store = store) valid
        rw [size] at related
        exact follows_one operation related
  · cases moves

/-- An operation without an effect traps on both sides. -/
theorem Running.instr_traps {instr : Instr} {result : Ending Nat Store}
    (running : Running signature final arguments context inner base values config state)
    (exprs : config.exprs = .instr instr :: rest)
    (halts : config.stepExpr effects (.instr instr) rest = .halt result) :
    translated effects final arguments state = .halt result := by
  rw [Config.stepExpr, Config.perform] at halts
  cases found : signature instr with
  | none =>
      rw [found] at halts
      cases halts
  | some type =>
  rw [found] at halts
  dsimp only at halts
  split at halts
  · rename_i enough
    obtain ⟨_, _, _, _, _, _, _, operation⟩ := running.operation effects exprs found enough
    cases ran : effects.run instr (config.operands.take type.params.length).reverse config.store with
    | none =>
        rw [ran] at halts
        obtain rfl := Move.halt.inj halts
        rw [operation, running.store, ran]
    | some outcome =>
        rw [ran] at halts
        cases halts
  · cases halts

end WasmToLlvm.Block
