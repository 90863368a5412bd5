import WasmToLlvm.Block.Extension
import WasmToLlvm.Block.PhiAgreement
import WasmToLlvm.Block.Straight
import WasmToLlvm.Llvm.Execution

/-!
# Invariants of a translation

All that holds between two expressions: the graph and the phis, the stages of the
blocks, what is known of the values on the symbolic stack, and that edges from one
block to another carry the same values.
-/

set_option autoImplicit false

namespace WasmToLlvm.Llvm

/-- A scalar value that exists among so many instructions. -/
structure Value.Known (count : Nat) (value : Value) : Prop where
  older : ∀ id, value.instId? = some id → id < count
  scalar : value.type.scalarWidth?.isSome

theorem Value.Known.mono {count count' : Nat} {value : Value} (known : value.Known count)
    (grown : count ≤ count') : value.Known count' :=
  ⟨fun id is => Nat.lt_of_lt_of_le (known.older id is) grown, known.scalar⟩

end WasmToLlvm.Llvm

namespace WasmToLlvm.Block

open Llvm Wasm Library BlockContext

/-! ## Edges with the same ends -/

def Consistent (edges : List Edge) : Prop :=
  ∀ edge ∈ edges, ∀ other ∈ edges, edge.source = other.source → edge.target = other.target →
    edge.carried = other.carried

theorem Consistent.append {edges more : List Edge} {block : Nat} (consistent : Consistent edges)
    (fresh : ∀ edge ∈ edges, edge.source ≠ block) (fromHere : ∀ edge ∈ more, edge.source = block)
    (same : Consistent more) : Consistent (edges ++ more) := by
  intro edge member other member' source target
  rcases List.mem_append.mp member with old | new <;> rcases List.mem_append.mp member' with old' | new'
  · exact consistent edge old other old' source target
  · exact absurd (source.trans (fromHere other new')) (fresh edge old)
  · exact absurd (source.symm.trans (fromHere edge new)) (fresh other old')
  · exact same edge new other new' source target

theorem consistent_singleton (edge : Edge) : Consistent [edge] := by
  intro first member other member' _ _
  rw [List.mem_singleton.mp member, List.mem_singleton.mp member']

/-- Edges whose values depend on their targets only. -/
theorem consistent_of_target {edges : List Edge} (carried : Nat → List Value)
    (given : ∀ edge ∈ edges, edge.carried = carried edge.target) : Consistent edges := by
  intro edge member other member' _ target
  rw [given edge member, given other member', target]

/-- No edge leaves the block that instructions are inserted into. -/
theorem no_edges {Op : Type} {context : BlockContext Op} {pending : List Nat} {block : Nat}
    (logged : context.Logged) (shaped : Shaped pending context) (here : context.At block) :
    ∀ edge ∈ context.edges, edge.source ≠ block := by
  obtain ⟨phis, plains, body, allPhis, allPlains⟩ := ((shaped.at here).opened block rfl).split
  have targets : ∀ id ∈ phis ++ plains, context.function.targets id = [] := by
    intro id member
    rw [Function.targets]
    rcases List.mem_append.mp member with member | member
    · obtain ⟨inst, found, phi⟩ := allPhis id member
      rw [found]
      cases inst <;> first | rfl | cases phi
    · obtain ⟨inst, found, plain⟩ := allPlains id member
      rw [found]
      cases inst <;> first | rfl | cases plain
  have none : context.function.successors block = [] := by
    rw [Function.successors, body, List.flatMap_eq_nil_iff]
    exact targets
  intro edge member from_
  rw [logged.traced.graph, List.map_eq_nil_iff, edgesFrom, List.filter_eq_nil_iff] at none
  exact none edge member (by simp [from_])

/-- The label of a target has the same phis as every other one. -/
theorem LabelPhis.same {Op : Type} {function : Function Op} {label other : BreakoutTarget}
    (labelled : LabelPhis function label) (labelled' : LabelPhis function other)
    (target : label.target = other.target) : label.phis = other.phis := by
  refine List.ext_getElem? fun index => Option.ext fun phi => ?_
  obtain ⟨id, type⟩ := phi
  rw [← labelled.phis, ← labelled'.phis, target]

variable {I : InstructionSet}

theorem Step.consistent {context next : BlockContext I.Op} {block : Nat} {expr : Expr I.Instr}
    {pending : List Nat} (step : Step I context block expr next) (here : context.At block)
    (logged : context.Logged) (shaped : Shaped pending context) (consistent : Consistent context.edges) :
    Consistent next.edges := by
  have fresh := no_edges logged shaped here
  cases step with
  | straight _ _ => exact consistent
  | unreachable => exact consistent
  | br _ => exact consistent.append fresh (by simp) (consistent_singleton _)
  | return_ _ _ => exact consistent.append fresh (by simp) (consistent_singleton _)
  | @brIf _ value rest label top branches =>
      have bound := (logged.labelled _ (List.mem_of_getElem? branches.found)).bound
      have edges : (context.branchOrNext block value rest label).edges = context.edges ++
          [⟨.branch, block, label.target, carriedValues rest label.phis.length⟩,
            ⟨.arm, block, context.function.blocks.length, []⟩] :=
        List.append_assoc _ _ _
      rw [edges]
      refine consistent.append fresh (by simp) (consistent_of_target (fun target =>
        if target = label.target then carriedValues rest label.phis.length else []) ?_)
      have different : context.function.blocks.length ≠ label.target := by omega
      simp [different]
  | @brTable _ _ value rest label labels top branches all =>
      rw [addTargets_edges]
      have start : (context.startTable block value rest label).edges =
        context.edges ++ [⟨.branch, block, label.target, carriedValues rest label.phis.length⟩] := rfl
      have stack : (context.startTable block value rest label).stack = rest := rfl
      rw [start, stack, List.append_assoc]
      refine consistent.append fresh ?_ ?_
      · simp
      · -- all of them go to labels, and labels with one target have the same phis
        have going : ∀ edge ∈ [Edge.mk .branch block label.target
            (carriedValues rest label.phis.length)] ++ labels.map (fun label =>
              ⟨.tableCase, block, label.target, carriedValues rest label.phis.length⟩),
            ∃ goal ∈ context.blockStack, edge.target = goal.target ∧
              edge.carried = carriedValues rest goal.phis.length := by
          intro edge member
          rcases List.mem_append.mp member with member | member
          · obtain rfl := List.mem_singleton.mp member
            exact ⟨label, List.mem_of_getElem? branches.found, rfl, rfl⟩
          · obtain ⟨goal, inside, rfl⟩ := List.mem_map.mp member
            obtain ⟨_, _, reaches⟩ := Reaches.of_mem all inside
            exact ⟨goal, List.mem_of_getElem? reaches.found, rfl, rfl⟩
        intro edge member other member' _ target
        obtain ⟨goal, inside, goes, carried⟩ := going edge member
        obtain ⟨goal', inside', goes', carried'⟩ := going other member'
        have same := (logged.labelled goal inside).same (logged.labelled goal' inside')
          (by rw [← goes, ← goes', target])
        rw [carried, carried', same]

/-! ## Values -/

structure Sound {Op : Type} (context : BlockContext Op) : Prop where
  stack : ∀ value ∈ context.stack, value.Known context.function.insts.length
  locals : ∀ alloca ∈ context.locals,
    alloca.id < context.function.insts.length ∧ alloca.allocatedType.scalarWidth?.isSome
  labels : ∀ label ∈ context.blockStack, ∀ phi ∈ label.phis,
    phi.value.Known context.function.insts.length

/-- Instructions leave values on the stack that were there, or scalar results of their own. -/
def InstructionSet.Scalar (I : InstructionSet) : Prop :=
  ∀ instr (straight after : Straight I.Op), straight.code = [] →
    I.visit instr straight = .ok ((), after) → ∀ value ∈ after.stack, value ∈ straight.stack ∨
      value.Known (straight.next + after.code.length)

section Sound

variable {Op : Type} {context larger : BlockContext Op}

/-- More instructions, and values that are known among them. -/
theorem Sound.grows (sound : Sound context)
    (count : context.function.insts.length ≤ larger.function.insts.length)
    (stack : ∀ value ∈ larger.stack, value ∈ context.stack ∨ value.Known larger.function.insts.length)
    (locals : larger.locals = context.locals)
    (labels : ∀ label ∈ larger.blockStack, label ∈ context.blockStack ∨
      ∀ phi ∈ label.phis, phi.value.Known larger.function.insts.length) : Sound larger where
  stack := by
    intro value member
    rcases stack value member with old | known
    · exact (sound.stack value old).mono count
    · exact known
  locals := by
    intro alloca member
    rw [locals] at member
    obtain ⟨older, scalar⟩ := sound.locals alloca member
    exact ⟨Nat.lt_of_lt_of_le older count, scalar⟩
  labels := by
    intro label member phi inside
    rcases labels label member with old | known
    · exact (sound.labels label old phi inside).mono count
    · exact known phi inside

theorem convert_scalar {types : List ValType} {converted : List Ty} (all : Convert types converted) :
    ∀ type ∈ converted, type.scalarWidth?.isSome := by
  induction all with
  | nil => simp
  | @cons source target _ _ found _ ih =>
      intro type member
      rcases List.mem_cons.mp member with rfl | member
      · cases source <;> cases found <;> rfl
      · exact ih type member

theorem resultPhis_known {types : List Ty} (scalar : ∀ type ∈ types, type.scalarWidth?.isSome)
    (next : Nat) : ∀ phi ∈ resultPhis next types, next ≤ phi.id ∧ phi.value.Known (next + types.length) := by
  intro phi member
  obtain ⟨index, found⟩ := List.mem_iff_getElem?.mp member
  rw [resultPhis_getElem?, Option.map_eq_some_iff] at found
  obtain ⟨type, found, rfl⟩ := found
  have inside := (List.getElem?_eq_some_iff.mp found).1
  refine ⟨Nat.le_add_right _ _, fun id is => ?_, scalar type (List.mem_of_getElem? found)⟩
  obtain rfl := Option.some.inj is
  exact Nat.add_lt_add_left inside next

end Sound

theorem straightVisit_known {context : BlockContext I.Op} {expr : Expr I.Instr}
    {visit : Visit I.Op Unit} {after : Straight I.Op} (scalar : I.Scalar) (sound : Sound context)
    (code : straightVisit I expr = some visit) (ran : visit (visitStart context) = .ok ((), after)) :
    ∀ value ∈ after.stack, value ∈ context.stack ∨
      value.Known (context.function.insts.length + after.code.length) := by
  intro value member
  cases expr with
  | nop =>
      cases code
      obtain ⟨_, rfl⟩ := Prod.mk.inj (Except.ok.inj ran)
      exact .inl member
  | drop =>
      cases code
      obtain ⟨top, rest, stack, rfl⟩ := visitDrop_ok.mp ran
      exact .inl (by rw [show context.stack = top :: rest from stack]; exact List.mem_cons_of_mem _ member)
  | select resultType =>
      cases code
      obtain ⟨condition, right, left, rest, stack, rfl⟩ := visitSelectExpr_ok.mp ran
      have shown : context.stack = condition :: right :: left :: rest := stack
      rcases List.mem_cons.mp member with rfl | member
      · have known := sound.stack left (by simp [shown])
        refine .inr ⟨fun id is => ?_, known.scalar⟩
        obtain rfl := Option.some.inj is
        simp [visitStart]
      · exact .inl (by simp [shown, member])
  | localGet index =>
      cases code
      obtain ⟨target, found, rfl⟩ := visitLocalGet_ok.mp ran
      rcases List.mem_cons.mp member with rfl | member
      · refine .inr ⟨fun id is => ?_, (sound.locals target (List.mem_of_getElem? found)).2⟩
        obtain rfl := Option.some.inj is
        simp [visitStart]
      · exact .inl member
  | localSet index =>
      cases code
      obtain ⟨top, rest, target, stack, _, rfl⟩ := visitLocalSet_ok.mp ran
      exact .inl (by rw [show context.stack = top :: rest from stack]; exact List.mem_cons_of_mem _ member)
  | localTee index =>
      cases code
      obtain ⟨top, rest, target, stack, _, rfl⟩ := visitLocalTee_ok.mp ran
      exact .inl member
  | instr instr =>
      cases code
      exact scalar instr (visitStart context) after rfl ran value member
  | _ => cases code

theorem Step.sound {context next : BlockContext I.Op} {block : Nat} {expr : Expr I.Instr}
    (step : Step I context block expr next) (scalar : I.Scalar) (sound : Sound context) :
    Sound next := by
  refine sound.grows (step.grows (.refl _)).insts.length_le ?_ step.locals
    fun label member => .inl (step.blockStack ▸ member)
  have taken : ∀ {value : Value} {rest : List Value}, context.stack = value :: rest →
      ∀ other ∈ rest, other ∈ context.stack := by
    intro value rest top other member
    rw [top]
    exact List.mem_cons_of_mem _ member
  cases step with
  | straight code ran =>
      intro value member
      have known := straightVisit_known scalar sound code ran value member
      simpa [afterVisit] using known
  | unreachable => exact fun value member => .inl member
  | br _ => exact fun value member => .inl member
  | return_ _ _ => exact fun value member => .inl member
  | brIf top _ => exact fun value member => .inl (taken top value member)
  | brTable top _ _ =>
      intro value member
      rw [addTargets_stack] at member
      exact .inl (taken top value member)

/-! ## All of them -/

structure Good {Op : Type} (pending : List Nat) (context : BlockContext Op) : Prop where
  logged : context.Logged
  shaped : Shaped pending context
  consistent : Consistent context.edges
  sound : Sound context

section Good

variable {context inner : BlockContext I.Op} {block : Nat} {pending : List Nat}
  {decl : BlockDeclaration} {types : List Ty}

theorem Step.good {next : BlockContext I.Op} {expr : Expr I.Instr}
    (step : Step I context block expr next) (here : context.At block) (scalar : I.Scalar)
    (good : Good pending context) : Good pending next where
  logged := step.logged here good.logged
  shaped := step.shaped here good.shaped
  consistent := step.consistent here good.logged good.shaped good.consistent
  sound := step.sound scalar good.sound

theorem startBlock_good (here : context.At block) (all : Convert decl.results types)
    (good : Good pending context) :
    Good (context.function.blocks.length :: pending) (context.startBlock block decl types) where
  logged := startBlock_logged good.logged
  shaped := startBlock_shaped here good.shaped
  consistent := good.consistent
  sound := by
    refine good.sound.grows (startBlock_grows (.refl _) _ _ _).insts.length_le
      (fun value member => .inl member) rfl fun label member => ?_
    rcases List.mem_cons.mp member with rfl | member
    · refine .inr fun phi inside => ?_
      have known := (resultPhis_known (convert_scalar all) _ phi inside).2
      simpa [startBlock, openLabel] using known
    · exact .inl member

theorem startLoop_good (here : context.At block) (all : Convert decl.params.reverse types)
    (enough : decl.params.length ≤ context.stack.length) (good : Good pending context) :
    Good pending (context.startLoop block decl types) := by
  have known : ∀ phi ∈ ((context.branchToLoop block decl).loopLabel context.function.blocks.length decl
      types).phis, phi.value.Known (context.startLoop block decl types).function.insts.length := by
    intro phi member
    simp only [loopLabel, paramPhis_eq, List.append_nil, List.mem_reverse] at member
    have known := (resultPhis_known (convert_scalar all) _ phi member).2
    simpa [startLoop, openLoop, openParams] using known
  refine ⟨startLoop_logged here good.logged all enough, startLoop_shaped here good.shaped, ?_, ?_⟩
  · exact good.consistent.append (no_edges good.logged good.shaped here) (by simp)
      (consistent_singleton _)
  · refine good.sound.grows (startLoop_grows (.refl _) _ _ _).insts.length_le (fun value member => ?_) rfl
      fun label member => ?_
    · rcases List.mem_append.mp member with new | old
      · obtain ⟨phi, inside, rfl⟩ := List.mem_map.mp (List.mem_reverse.mp new)
        exact .inr (known phi inside)
      · exact .inl (List.mem_of_mem_drop old)
    · rcases List.mem_cons.mp member with rfl | member
      · exact .inr known
      · exact .inl member

theorem startThen_good (here : context.At block) {value : Value} {rest : List Value}
    (top : context.stack = value :: rest) (all : Convert decl.results types)
    (good : Good pending context) :
    Good ((context.function.blocks.length + 1) :: (context.function.blocks.length + 2) :: pending)
      (context.startThen block value rest decl types) where
  logged := startThen_logged here good.logged value rest
  shaped := startThen_shaped here good.shaped
  consistent := by
    have edges : (context.startThen block value rest decl types).edges = context.edges ++
        [⟨.arm, block, context.function.blocks.length, []⟩,
          ⟨.arm, block, context.function.blocks.length + 1, []⟩] :=
      List.append_assoc _ _ _
    rw [edges]
    exact good.consistent.append (no_edges good.logged good.shaped here) (by simp)
      (consistent_of_target (fun _ => []) (by simp))
  sound := by
    refine good.sound.grows (startThen_grows (.refl _) _ _ _ _ _).insts.length_le
      (fun other member => .inl ?_) rfl fun label member => ?_
    · rw [top]
      exact List.mem_cons_of_mem _ member
    · rcases List.mem_cons.mp member with rfl | member
      · refine .inr fun phi inside => ?_
        have known := (resultPhis_known (convert_scalar all) _ phi inside).2
        simpa [startThen, openLabel] using known
      · exact .inl member

/-- The end of a body; the next instructions go to the first of the blocks that wait. -/
theorem leave_good {label : BreakoutTarget} {arity target : Nat} (lty : LabelType)
    (placed : inner.Placed) (good : Good (target :: pending) inner) (member : label ∈ inner.blockStack)
    (sized : label.phis.length = arity) (closable : Closable inner label.pos arity) :
    Good pending ((inner.leave lty label).moveTo target) := by
  have fewer : ∀ other ∈ (inner.leave lty label).blockStack, other ∈ inner.blockStack := by
    intro other inside
    rw [leave, withLabels_blockStack] at inside
    split at inside
    · exact inside
    · exact List.mem_of_mem_tail inside
  refine ⟨leave_logged lty placed good.logged member sized closable, ⟨?_, ?_⟩, ?_, ?_⟩
  · exact (flowInto_staged label.phis placed good.shaped.staged (good.shaped.labels label member)).enter
  · intro other inside
    rw [moveTo_function, leave_blocks_length]
    exact good.shaped.labels other (fewer other inside)
  · show Consistent (inner.flowInto label.target label.phis).edges
    rcases placed with nowhere | ⟨block, here⟩
    · rw [flowInto, show inner.getInsertBlock = none by simp [getInsertBlock, nowhere]]
      exact good.consistent
    · rw [flowInto, here.getInsertBlock]
      exact good.consistent.append (no_edges good.logged good.shaped here) (by simp)
        (consistent_singleton _)
  · have grown := (flowInto_grows (.refl inner.function) label.target label.phis).insts.length_le
    refine good.sound.grows grown (fun value inside => ?_) (by simp) fun other inside => .inl (fewer other inside)
    rcases List.mem_append.mp inside with pushed | kept
    · split at pushed
      · cases pushed
      · obtain ⟨phi, inPhis, rfl⟩ := List.mem_map.mp (List.mem_reverse.mp pushed)
        exact .inr ((good.sound.labels label member phi inPhis).mono grown)
    · exact .inl (List.mem_of_mem_drop kept)

theorem Good.withLabels {labels : List BreakoutTarget} (good : Good pending context)
    (fewer : ∀ label ∈ labels, label ∈ context.blockStack) : Good pending (context.withLabels labels) where
  logged := good.logged.subset fewer
  shaped := ⟨good.shaped.staged, fun label member => good.shaped.labels label (fewer label member)⟩
  consistent := good.consistent
  sound := ⟨good.sound.stack, good.sound.locals, fun label member => good.sound.labels label (fewer label member)⟩

theorem Good.withStack {stack : List Value} (good : Good pending context)
    (known : ∀ value ∈ stack, value.Known context.function.insts.length) :
    Good pending (context.withStack stack) :=
  ⟨good.logged, ⟨good.shaped.staged, good.shaped.labels⟩, good.consistent,
    ⟨known, good.sound.locals, good.sound.labels⟩⟩

theorem startElse_good {first : BlockContext I.Op} {label : BreakoutTarget} {arity elseBlock : Nat}
    (params : List Value) (placed : first.Placed) (good : Good (elseBlock :: pending) first)
    (member : label ∈ first.blockStack) (sized : label.phis.length = arity)
    (closable : Closable first label.pos arity)
    (known : ∀ value ∈ params, value.Known first.function.insts.length) :
    Good pending (first.startElse label elseBlock params) := by
  have left := leave_good .if_ placed good member sized closable
  have grown := (flowInto_grows (.refl first.function) label.target label.phis).insts.length_le
  have known' : ∀ value ∈ params ++ (first.leave .if_ label).stack,
      value.Known (first.leave .if_ label).function.insts.length := by
    intro value inside
    rcases List.mem_append.mp inside with new | old
    · exact (known value new).mono grown
    · exact left.sound.stack value old
  exact left.withStack known'

end Good

/-- The invariants hold between any two expressions. -/
theorem Emits.good {context final : BlockContext I.Op} {exprs : List (Expr I.Instr)}
    {pending : List Nat} (emits : Emits I context exprs final) (scalar : I.Scalar)
    (good : Good pending context) : Good pending final := by
  induction emits generalizing pending with
  | nil => exact good
  | skipped nowhere => exact good
  | step here head tail ih => exact ih (head.good here scalar good)
  | @block context inner _ block decl _ _ types here all run closable tail ihRun ihTail =>
      have top : inner.blockStack = context.blockLabel decl types :: context.blockStack := run.blockStack
      exact ihTail (leave_good .block (run.placed (.inr ⟨_, startBlock_at _ _ here⟩))
        (ihRun (startBlock_good here all good)) (top ▸ List.mem_cons_self) (exitLabel_sized _ _ _ all)
        closable)
  | loop here all enough run closable tail ihRun ihTail =>
      exact ihTail ((ihRun (startLoop_good here all enough good)).withLabels
        fun label member => List.mem_of_mem_tail member)
  | @if_ context first second _ block value rest decl _ _ _ types here top enough all runTrue
      closableTrue runFalse closableFalse tail ihTrue ihFalse ihTail =>
      have topTrue : first.blockStack = context.ifLabel block value rest decl types ::
        context.blockStack := runTrue.blockStack
      have topFalse : second.blockStack = context.ifLabel block value rest decl types ::
        context.blockStack := runFalse.blockStack.trans (startElse_blockStack runTrue)
      have grown := (runTrue.grows (startThen_grows (.refl _) _ _ _ _ _)).insts.length_le
      have enteredFalse := startElse_good (rest.take decl.params.length) (runTrue.placed (.inr ⟨_, startThen_at _ _ _ _⟩))
        (ihTrue (startThen_good here top all good)) (topTrue ▸ List.mem_cons_self)
        (exitLabel_sized _ _ _ all) closableTrue fun param member =>
          (good.sound.stack param (by
            rw [top]
            exact List.mem_cons_of_mem _ (List.mem_of_mem_take member))).mono grown
      exact ihTail (leave_good .else_ (runFalse.placed (.inr ⟨_, startElse_placed runTrue⟩))
        (ihFalse enteredFalse) (topFalse ▸ List.mem_cons_self) (exitLabel_sized _ _ _ all) closableFalse)

end WasmToLlvm.Block
