import WasmToLlvm.Block.Start

/-!
# Translation preserves behaviour

The translated function simulates the function: one lemma for each move, assembled
in the simulation rule. Phis have an entry for each edge because blocks take no
parameters and no entry is without a block.
-/

set_option autoImplicit false

namespace WasmToLlvm.Wasm

mutual

/-- Block types of WebAssembly 1.0. -/
def Expr.paramless {Instr : Type} : Expr Instr → Bool
  | .block decl exprs | .loop decl exprs => decl.params.isEmpty && ExprList.paramless exprs
  | .if_ decl trueExprs falseExprs =>
      decl.params.isEmpty && ExprList.paramless trueExprs && ExprList.paramless falseExprs
  | _ => true

def ExprList.paramless {Instr : Type} : List (Expr Instr) → Bool
  | [] => true
  | expr :: exprs => Expr.paramless expr && ExprList.paramless exprs

end

end WasmToLlvm.Wasm

namespace WasmToLlvm.Block

open Llvm Wasm Library BlockContext

/-! ## Entries of phis -/

section Entries

variable {I : InstructionSet} {context inner final : BlockContext I.Op}

/-- Edges into loops carry nothing. -/
def EmptyEntries {Op : Type} (context : BlockContext Op) : Prop :=
  ∀ edge ∈ context.edges, edge.kind = .loopEntry → edge.carried = []

theorem EmptyEntries.flowInto (empty : EmptyEntries inner) (exit : Nat) (phis : List PHINode) :
    EmptyEntries (inner.flowInto exit phis) := by
  intro edge member entry
  rw [BlockContext.flowInto] at member
  cases here : inner.getInsertBlock with
  | none =>
      rw [here] at member
      exact empty edge member entry
  | some block =>
      rw [here] at member
      rcases List.mem_append.mp member with old | new
      · exact empty edge old entry
      · obtain rfl := List.mem_singleton.mp new
        cases entry

theorem Emits.emptyEntries {exprs : List (Expr I.Instr)} (emits : Emits I context exprs final)
    (paramless : ExprList.paramless exprs) (empty : EmptyEntries context) : EmptyEntries final := by
  induction emits with
  | nil => exact empty
  | skipped _ => exact empty
  | step here head tail ih =>
      simp only [ExprList.paramless, Bool.and_eq_true] at paramless
      refine ih paramless.2 fun edge member entry => ?_
      obtain ⟨more, edges, stepEdges⟩ := head.edges
      rw [edges] at member
      rcases List.mem_append.mp member with old | new
      · exact empty edge old entry
      · exact absurd entry (stepEdges.inside edge new)
  | block here all run closable tail ihRun ihTail =>
      simp only [ExprList.paramless, Expr.paramless, Bool.and_eq_true] at paramless
      exact ihTail paramless.2 ((ihRun paramless.1.2 empty).flowInto _ _)
  | @loop context inner _ block decl _ _ types here all enough run closable tail ihRun ihTail =>
      simp only [ExprList.paramless, Expr.paramless, Bool.and_eq_true, List.isEmpty_iff] at paramless
      refine ihTail paramless.2 (ihRun paramless.1.2 fun edge member entry => ?_)
      rcases List.mem_append.mp member with old | new
      · exact empty edge old entry
      · obtain rfl := List.mem_singleton.mp new
        rw [paramless.1.1]
        rfl
  | if_ here top enough all runTrue closableTrue runFalse closableFalse tail ihTrue ihFalse ihTail =>
      simp only [ExprList.paramless, Expr.paramless, Bool.and_eq_true] at paramless
      refine ihTail paramless.2 ((ihFalse paramless.1.2 ((ihTrue paramless.1.1.2 fun edge member entry =>
        ?_).flowInto _ _)).flowInto _ _)
      rcases List.mem_append.mp member with member | new
      · rcases List.mem_append.mp member with old | new
        · exact empty edge old entry
        · obtain rfl := List.mem_singleton.mp new
          cases entry
      · obtain rfl := List.mem_singleton.mp new
        cases entry

/-- Where no phi entry is without a block, the entries name the blocks that the edges leave. -/
theorem EmitsFunc.faithful {func : Func I.Instr} (emitted : EmitsFunc I func final)
    (paramless : ExprList.paramless func.exprs)
    (named : ∀ id, ∀ entry ∈ final.function.entries id, entry.2 ≠ none) : final.Faithful := by
  have history := emitted.history
  have empty : EmptyEntries final := by
    obtain @⟨params, locals, results, inner, _, _, _, run, _, _⟩ := emitted
    have inside := run.emptyEntries paramless nofun
    rw [EmptyEntries, finish_edges]
    exact inside.flowInto _ _
  intro edge member
  rcases Classical.em (edge.carried = []) with nothing | carries
  · exact .inl nothing
  right
  obtain ⟨id, type, phi⟩ := history.borne.phis edge member carries
  have recorded := history.logged.recorded edge.target id 0 type phi
  have into : edge ∈ edgesInto final.edges edge.target := by simp [edgesInto, member]
  obtain ⟨entry, inEntries, same⟩ := List.mem_map.mp (recorded ▸ List.mem_map_of_mem into)
  have present := named id entry inEntries
  rw [Prod.mk.injEq] at same
  rw [same.2] at present
  cases kind : edge.kind with
  | loopEntry => exact absurd (empty edge member kind) carries
  | tableCase => simp [Edge.recorded, kind] at present
  | _ => simp [Edge.recorded, kind]

end Entries

/-! ## The simulation -/

section Simulation

variable {Instr Store : Type} {signature : Instr → Option FuncSignature}
  {effects : Effects Instr Store signature} {final context inner : BlockContext Instr}
  {arguments : List Nat} {base values : List Value} {config next : Config Instr Store}
  {state : State Store} {event : Option (Event Instr)} {result : Ending Nat Store}

theorem Running.follows
    (running : Running signature final arguments context inner base values config state)
    (settled : Settled final) (moves : config.step effects = .step event next)
    (valid : Valid signature next) : Follows effects final arguments config state event next := by
  rw [Config.step] at moves
  cases exprs : config.exprs with
  | nil =>
      rw [exprs] at moves
      exact running.leave settled exprs moves valid
  | cons expr rest =>
      rw [exprs] at moves
      cases expr with
      | block decl body => exact running.block exprs moves valid
      | loop decl body => exact running.loop settled exprs moves valid
      | if_ decl body other => exact running.if_ settled exprs moves valid
      | br depth => exact running.br settled exprs moves valid
      | brIf depth => exact running.brIf settled exprs moves valid
      | brTable targets default => exact running.brTable settled exprs moves valid
      | return_ => exact running.return_ settled exprs moves valid
      | unreachable => cases moves
      | nop => exact running.nop exprs moves valid
      | drop => exact running.drop exprs moves valid
      | select resultType => exact running.select exprs moves valid
      | localGet index => exact running.localGet exprs moves valid
      | localSet index => exact running.localSet exprs moves valid
      | localTee index => exact running.localTee exprs moves valid
      | instr instr => exact running.instr exprs moves valid

theorem branch_goesOn {depth : Nat} : config.branch depth ≠ .halt result := by
  rw [Config.branch]
  split
  · simp
  · split
    · split <;> simp
    · simp

theorem enter_goesOn {arity params : Nat} {again : Option (List (Expr Instr))}
    {body rest : List (Expr Instr)} : config.enter arity params again body rest ≠ .halt result := by
  rw [Config.enter]
  split <;> simp

/-- A running function halts at `unreachable` or at a trap of an instruction. -/
theorem stepExpr_halts {expr : Expr Instr} {rest : List (Expr Instr)}
    (halts : config.stepExpr effects expr rest = .halt result) :
    expr = .unreachable ∨ ∃ instr, expr = .instr instr := by
  cases expr with
  | unreachable => exact .inl rfl
  | instr instr => exact .inr ⟨instr, rfl⟩
  | block decl body => exact absurd halts enter_goesOn
  | loop decl body => exact absurd halts enter_goesOn
  | br depth => exact absurd halts branch_goesOn
  | return_ => exact absurd halts branch_goesOn
  | nop => cases halts
  | localGet index =>
      rw [Config.stepExpr] at halts
      split at halts <;> cases halts
  | if_ decl body other =>
      rw [Config.stepExpr] at halts
      split at halts
      · exact absurd halts enter_goesOn
      · cases halts
  | brIf depth =>
      rw [Config.stepExpr] at halts
      split at halts
      · split at halts
        · exact absurd halts branch_goesOn
        · cases halts
      · cases halts
  | brTable targets default =>
      rw [Config.stepExpr] at halts
      split at halts
      · exact absurd halts branch_goesOn
      · cases halts
  | drop | select _ =>
      rw [Config.stepExpr] at halts
      split at halts <;> cases halts
  | localSet index | localTee index =>
      rw [Config.stepExpr] at halts
      split at halts
      · split at halts <;> cases halts
      · cases halts

theorem Running.halts
    (running : Running signature final arguments context inner base values config state)
    (halts : config.step effects = .halt result) :
    translated effects final arguments state = .halt result := by
  rw [Config.step] at halts
  cases exprs : config.exprs with
  | nil =>
      rw [exprs, Config.leave] at halts
      have nest := running.nest
      cases labels : config.labels with
      | nil =>
          have count := nest.length
          rw [labels] at nest count
          rw [List.length_nil, List.length_eq_zero_iff] at count
          rw [count] at nest
          cases nest
      | cons entry entries =>
          rw [labels] at halts
          cases halts
  | cons expr rest =>
      rw [exprs] at halts
      rcases stepExpr_halts halts with rfl | ⟨instr, rfl⟩
      · obtain rfl := Move.halt.inj halts
        exact running.unreachable exprs
      · exact running.instr_traps exprs halts

/-- The return instruction returns the results of the function. -/
theorem returns {arity : Nat} (here : context.At state.block)
    (position : state.position = (context.function.body state.block).length)
    (returned : final = context.finish state.block arity) (single : arity ≤ 1)
    (height : context.stack.length = arity)
    (denotes : Denotes arguments state.registers context.stack config.operands) :
    translated effects final arguments state = .halt (.returned config.operands.reverse state.store) := by
  match isArity : arity, isStack : context.stack with
  | 0, [] =>
      rw [isStack] at denotes
      have ended : config.operands = [] := List.forall₂_nil_left_iff.mp denotes
      have grows : (context.function.appendAll state.block [.ret none]).Grows final.function := by
        rw [returned, finish]
        exact .refl _
      rw [step_at [.ret none] 0 here grows rfl rfl position, ended]
      rfl
  | 1, [value] =>
      rw [isStack] at denotes
      obtain ⟨operand, operands, evaluates, below, ended⟩ := List.forall₂_cons_left_iff.mp denotes
      obtain rfl := List.forall₂_nil_left_iff.mp below
      have grows : (context.function.appendAll state.block [.ret (some value)]).Grows final.function := by
        have last : context.finish state.block 1 =
            (context.withStack []).emit state.block (.ret (some value)) := by
          simp [finish, isStack]
        rw [returned, last]
        exact .refl _
      rw [step_at [.ret (some value)] 0 here grows rfl rfl position, ended, State.execute, evaluates]
      rfl
  | 0, _ :: _ => simp [isStack] at height
  | 1, [] => simp [isStack] at height
  | 1, _ :: _ :: _ => simp [isStack] at height
  | _ + 2, _ => omega

theorem translation_simulates (settled : Settled final) :
    Simulates (Config.step effects) (translated effects final arguments)
      (Related signature final arguments) rank where
  halt := by
    rintro config state result (running |
      ⟨here, position, ends, outermost, returned, single, height, denotes, store⟩) halts
    · exact ⟨0, state, .refl, running.halts halts⟩
    · rw [Config.step, ends, Config.leave, outermost] at halts
      obtain rfl := Move.halt.inj halts
      rw [← store]
      exact ⟨0, state, .refl, returns here position returned single height denotes⟩
  step := by
    rintro config state event next (running |
      ⟨_, _, ends, outermost, _, _, _, _, _⟩) moves
    · rcases running.valid.progresses effects with ⟨result, halts⟩ | ⟨event', next', moves', valid⟩
      · cases halts.symm.trans moves
      · obtain ⟨rfl, rfl⟩ := Move.step.inj (moves'.symm.trans moves)
        exact running.follows settled moves valid
    · rw [Config.step, ends, Config.leave, outermost] at moves
      cases moves
  notStuck := by
    rintro config state (running | ⟨_, _, ends, outermost, _, _, _, _, _⟩) stuck
    · rcases running.valid.progresses effects with ⟨result, halts⟩ | ⟨event', next', moves', valid⟩
      · cases halts.symm.trans stuck
      · cases moves'.symm.trans stuck
    · rw [Config.step, ends, Config.leave, outermost] at stuck
      cases stuck

/-- Control-flow translation preserves behaviour: the same effects in the same order, the
same results, the same traps, and no end where the function has none. -/
theorem visitFunc_preserves {func : Func Instr} (effects : Effects Instr Store signature)
    (validated : Validated signature func) (paramless : ExprList.paramless func.exprs)
    (built : visitFunc (opaqueSet Instr signature) func = .ok final)
    (named : ∀ id, ∀ entry ∈ final.function.entries id, entry.2 ≠ none)
    (fits : arguments.length = func.decl.params.length) (store : Store) :
    SameBehaviour (Config.step effects) (func.start arguments store)
      (State.step effects.run final.function arguments) (State.start store) := by
  have emitted := visitFunc_ok.mp built
  have settled := emitted.settled (emitted.faithful paramless named)
  exact (translation_simulates settled).delayed.sameBehaviour (call_related validated emitted fits store)

end Simulation

/-- The successor of a number, with a count of its uses. -/
def counted : Effects Unit Nat fun _ => some ⟨[.i32], [.i32]⟩ where
  run _ arguments uses :=
    match arguments with
    | [value] => some ([(value + 1) % 2 ^ 32], uses + 1)
    | _ => none
  sized := by
    rintro _ type (_ | ⟨value, _ | _⟩) store results after found ran
    · cases ran
    · cases found
      cases ran
      rfl
    · cases ran

/-- A loop that a value is carried out of. -/
def countUp : Func Unit where
  decl := ⟨[.i32], [.i32]⟩
  localTypes := [.i64]
  exprs := [.block ⟨[], [.i32]⟩ [.loop ⟨[], [.i32]⟩ [.localGet 0, .instr (), .localTee 0, .localGet 0,
    .brIf 1, .drop, .br 0]]]

theorem visitFunc_preserves_countUp :
    ∃ final, visitFunc (opaqueSet Unit fun _ => some ⟨[.i32], [.i32]⟩) countUp = .ok final ∧
      SameBehaviour (Config.step counted) (countUp.start [7] 0)
        (State.step counted.run final.function [7]) (State.start 0) := by
  obtain ⟨final, built⟩ := visitFunc_completes
    (show (visitFunc (opaqueSet Unit fun _ => some ⟨[.i32], [.i32]⟩) countUp).isOk from by decide +kernel)
  refine ⟨final, built, visitFunc_preserves counted (by decide +kernel) (by decide +kernel) built ?_ rfl 0⟩
  have checked : (visitFunc (opaqueSet Unit fun _ => some ⟨[.i32], [.i32]⟩) countUp).toOption.all
      (fun final => final.function.incoming.all fun entry => entry.block.isSome) := by decide +kernel
  rw [built] at checked
  intro id entry member
  obtain ⟨incoming, inside, rfl⟩ := List.mem_map.mp member
  exact Option.isSome_iff_ne_none.mp (List.all_eq_true.mp checked incoming (List.mem_filter.mp inside).1)

end WasmToLlvm.Block
