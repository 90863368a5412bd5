import WasmToLlvm.Block.Typing

/-!
# Typed runs

Constructs keep the types of the symbolic stack: the phis of a label have the LLVM types of
its types, every end of a body passes values of them, and what a body leaves alone is found
again behind it. The invariant holds at every expression that is visited, also in
translations that stop later on.
-/

set_option autoImplicit false

namespace WasmToLlvm.Block

open Llvm Wasm Library BlockContext

variable {I : InstructionSet}

/-! ## Operands of constructs -/

section Operands

variable {base : Nat} {operands below : Operands} {stack front low : List Value} {types : List ValType}
  {decl : BlockDeclaration} {label : BreakoutTarget}

theorem TypedStack.height (typed : TypedStack base operands stack) :
    stack.length = base + operands.types.length := by
  obtain ⟨front, low, rfl, lower, all⟩ := typed
  rw [List.length_append, lower.length, ← all.length_eq, Nat.add_comm]

/-- A whole stack stands below other operands. -/
theorem TypedStack.lower (typed : TypedStack base operands stack) : Lower (base + operands.types.length) stack where
  length := typed.height
  known := by
    obtain ⟨front, low, rfl, lower, all⟩ := typed
    intro value member
    rcases List.mem_append.mp member with top | under
    · obtain ⟨position, inside, rfl⟩ := List.mem_iff_getElem.mp top
      obtain ⟨type, _, is⟩ := all.get (all.length_eq ▸ inside) inside
      exact ⟨type, is⟩
    · exact lower.known value under

theorem Lower.push {new : List Value} (lower : Lower base low) (all : Convert types (new.map Value.type)) :
    Lower (base + types.length) (new ++ low) := by
  have whole := (typedStack_live lower all).lower
  rwa [Operands.live, List.length_map] at whole

/-- The parameters of a construct stand above what it leaves alone. -/
theorem TypedStack.opens (typed : TypedStack base operands stack) (live : operands.Live)
    (opens : Opens decl operands below stack base) :
    ∃ front low, stack = front ++ low ∧ Convert decl.params.reverse (front.map Value.type) ∧ TypedStack base below low :=
  typed.popList live opens.popped

/-- The results of a body stand at its end. -/
theorem TypedStack.closes (typed : TypedStack base operands stack) (live : operands.Live)
    (closed : closeFrame types operands = some ()) :
    ∃ front low, stack = front ++ low ∧ Convert types.reverse (front.map Value.type) ∧ Lower base low := by
  simp only [closeFrame, Option.bind_eq_bind, Option.bind_eq_some_iff] at closed
  obtain ⟨rest, popped, empty⟩ := closed
  obtain ⟨front, low, rfl, all, left⟩ := typed.popList live popped
  split at empty
  · rename_i nothing
    have lower := left.lower
    rw [nothing] at lower
    exact ⟨front, low, rfl, all, lower⟩
  · cases empty

theorem BreakoutTarget.HasTypes.values (has : label.HasTypes types) :
    Convert types.reverse ((label.phis.map PHINode.value).reverse.map Value.type) := by
  rw [List.map_reverse, List.map_map]
  exact List.rel_reverse has

theorem exitLabel_hasTypes {Op : Type} {context : BlockContext Op} {lty : LabelType} {exit : Nat} {converted : List Ty}
    (all : Convert decl.results converted) : (context.exitLabel lty exit decl converted).HasTypes decl.results := by
  rw [BreakoutTarget.HasTypes, exitLabel, resultPhis_types]
  exact all

theorem loopLabel_hasTypes {Op : Type} {context : BlockContext Op} {entry : Nat} {converted : List Ty}
    (all : Convert decl.params.reverse converted) :
    (context.loopLabel entry decl converted).HasTypes decl.params := by
  have phis : (context.loopLabel entry decl converted).phis.map PHINode.type = converted.reverse := by
    rw [loopLabel, paramPhis_eq, List.append_nil, List.map_reverse, resultPhis_types]
  rw [BreakoutTarget.HasTypes, phis]
  exact List.forall₂_reverse_iff.mp (by rwa [List.reverse_reverse])

end Operands

/-! ## Constructs -/

section Constructs

variable {agrees : I.Op → List Ty → Ty → Prop} {results : List Ty} {operands below condition : Operands}
  {context inner : BlockContext I.Op} {block base : Nat} {decl : BlockDeclaration} {types : List Ty}
  {value : Value} {rest : List Value} {label : BreakoutTarget}

theorem startBlock_typed (typed : TypedContext agrees results base operands context) (here : context.At block)
    (live : operands.Live) (opens : Opens decl operands below context.stack base) :
    TypedContext agrees results (base + below.types.length) (.live decl.params.reverse)
      (context.startBlock block decl types) where
  logged := startBlock_logged typed.logged
  agreed := (typed.agreed.newBlock "blk_exit").appendPhis _ (phiInsts_isPhi types 0)
  stack := by
    intro _
    obtain ⟨front, low, split, all, left⟩ := (typed.stack here.reachable).opens live opens
    show TypedStack _ _ context.stack
    rw [split]
    exact typedStack_live left.lower all

theorem startLoop_typed (typed : TypedContext agrees results base operands context) (here : context.At block)
    (live : operands.Live) (all : Convert decl.params.reverse types)
    (opens : Opens decl operands below context.stack base) :
    TypedContext agrees results (base + below.types.length) (.live decl.params.reverse)
      (context.startLoop block decl types) := by
  have height := opens.height
  have logged := startLoop_logged here typed.logged all (by omega)
  have has : ((context.branchToLoop block decl).loopLabel context.function.blocks.length decl types).HasTypes decl.params :=
    loopLabel_hasTypes all
  obtain ⟨front, low, split, passes, left⟩ := (typed.stack here.reachable).opens live opens
  have count : types.length = front.length := by
    simpa using all.length_eq.symm.trans passes.length_eq
  refine ⟨logged, ?_, fun _ => ?_⟩
  · have opened := ((typed.agreed.newBlock "loop_entry").append block
      (show Inst.Agrees agrees results (.br context.function.blocks.length) from trivial)).appendPhis
        context.function.blocks.length (paramInsts_isPhi types)
    refine opened.addIncomings (some context.function.blocks.length) fun entry member => ?_
    have entries := loopEntries_eq (context.branchToLoop block decl) context.function.blocks.length decl types context.stack
    exact entriesFor_typed (logged.labelled _ List.mem_cons_self) has split passes entry (entries ▸ member)
  · show TypedStack _ _ (_ ++ context.stack.drop types.length)
    rw [split, count, List.drop_left]
    exact typedStack_live left.lower has.values

theorem startThen_typed (typed : TypedContext agrees results base operands context) (here : context.At block)
    (live : operands.Live) (top : context.stack = value :: rest) (popTop : operands.popExpect .i32 = some condition)
    (opens : Opens decl condition below rest base) :
    TypedContext agrees results (base + below.types.length) (.live decl.params.reverse)
      (context.startThen block value rest decl types) := by
  obtain ⟨_, _, split, is, under⟩ := (typed.stack here.reachable).popExpect live popTop
  obtain ⟨rfl, rfl⟩ := List.cons.inj (top.symm.trans split)
  refine ⟨startThen_logged here typed.logged value rest, ?_, fun _ => ?_⟩
  · have compared := typed.agreed.append block (compared_agrees is)
    have arms := ((compared.newBlock "ifblk").newBlock "elseblk").newBlock "ifblk_exit"
    have branched := arms.append block (show Inst.Agrees agrees results
      (.condBr (context.compared value) context.function.blocks.length (context.function.blocks.length + 1)) from
        compared_type context is)
    exact branched.appendPhis (context.function.blocks.length + 2) (phiInsts_isPhi types 0)
  · obtain ⟨front, low, split, all, left⟩ := under.opens (live.popExpect popTop).live opens
    show TypedStack _ _ rest
    rw [split]
    exact typedStack_live left.lower all

/-- The end of a body passes values of the types of its label. -/
theorem leave_agrees {frame : Operands} {valTypes : List ValType} (lty : LabelType) (placed : inner.Placed)
    (typed : TypedContext agrees results base frame inner) (standing : Standing base inner frame)
    (closed : closeFrame valTypes frame = some ()) (member : label ∈ inner.blockStack) (has : label.HasTypes valTypes) :
    (inner.leave lty label).function.Agrees agrees results := by
  show (inner.flowInto label.target label.phis).function.Agrees agrees results
  rcases placed with nowhere | ⟨block, here⟩
  · rw [flowInto, show inner.getInsertBlock = none by simp [getInsertBlock, nowhere]]
    exact typed.agreed
  · obtain ⟨live, _⟩ := standing.live here.reachable
    obtain ⟨front, low, split, all, _⟩ := (typed.stack here.reachable).closes live closed
    rw [flowInto, here.getInsertBlock]
    exact (typed.agreed.addIncomings (some block) (entriesFor_typed (typed.logged.labelled label member) has split all)).append
      block trivial

/-- Behind a construct stand its results and what it left alone. -/
theorem leave_typed {base' : Nat} {frame : Operands} {stack : List Value} {valTypes : List ValType} (lty : LabelType)
    (target : Nat) (notFirst : lty ≠ .if_) (placed : inner.Placed)
    (typed : TypedContext agrees results base' frame inner) (standing : Standing base' inner frame)
    (closed : closeFrame valTypes frame = some ()) (member : label ∈ inner.blockStack) (has : label.HasTypes valTypes)
    (closable : Closable inner label.pos valTypes.length) (pos : label.pos = (base + below.types.length : Nat))
    (left : TypedStack base below stack) (suffix : stack <:+ inner.stack) :
    TypedContext agrees results base (below.pushList valTypes) ((inner.leave lty label).moveTo target) where
  logged := leave_logged lty placed typed.logged member (by simpa using has.length_eq.symm) closable
  agreed := leave_agrees lty placed typed standing closed member has
  stack := by
    intro _
    rw [moveTo_stack, leave_stack lty suffix (by rw [pos, left.height]), if_neg fun both => notFirst both.1]
    exact left.pushList has.values

/-- The second arm of a conditional starts with the parameters again; what the first one
left is below them. -/
theorem startElse_typed {frame : Operands} {elseBlock : Nat} {front stack : List Value} (placed : inner.Placed)
    (typed : TypedContext agrees results base frame inner) (standing : Standing base inner frame)
    (closed : closeFrame decl.results frame = some ()) (member : label ∈ inner.blockStack)
    (has : label.HasTypes decl.results) (closable : Closable inner label.pos decl.results.length)
    (pos : label.pos = (base : Nat)) (lower : Lower base stack) (suffix : stack <:+ inner.stack)
    (params : Convert decl.params.reverse (front.map Value.type)) :
    TypedContext agrees results (base + if inner.insertPoint = none then decl.results.length else 0)
      (.live decl.params.reverse) (inner.startElse label elseBlock front) where
  logged := leave_logged .if_ placed typed.logged member (by simpa using has.length_eq.symm) closable
  agreed := leave_agrees .if_ placed typed standing closed member has
  stack := by
    intro _
    refine typedStack_live ?_ params
    rw [leave_stack .if_ suffix (by rw [pos, lower.length])]
    by_cases nowhere : inner.insertPoint = none
    · have pushed := lower.push has.values
      rw [List.length_reverse] at pushed
      simpa [nowhere] using pushed
    · simpa [nowhere] using lower

end Constructs

/-! ## Runs -/

section Runs

variable {agrees : I.Op → List Ty → Ty → Prop} {results : List Ty} {holds : I.Instr → Bool}
  {validation : ValidationContext I.Instr} {operands after below condition frame : Operands} {base block : Nat}
  {context inner first second final : BlockContext I.Op} {exprs body other : List (Expr I.Instr)}
  {decl : BlockDeclaration} {types : List Ty} {value : Value} {rest : List Value}

/-- From a loop to the end of its body. -/
theorem leaveLoop_typed (typed : TypedContext agrees results base operands context) (here : context.At block)
    (live : operands.Live) (opens : Opens decl operands below context.stack base)
    (framed : Framed validation decl.params decl body frame)
    (inside : TypedContext agrees results (base + below.types.length) frame inner)
    (standing : Standing (base + below.types.length) inner frame)
    (keeps : Keeps (base + below.types.length) context.stack inner.stack) :
    TypedContext agrees results base (below.pushList decl.results) (inner.withLabels inner.blockStack.tail) where
  logged := inside.logged.subset fun _ member => List.mem_of_mem_tail member
  agreed := inside.agreed
  stack := by
    intro reached
    obtain ⟨liveFrame, _⟩ := standing.live reached
    obtain ⟨_, low, split, _, left⟩ := (typed.stack here.reachable).opens live opens
    obtain ⟨front, low', split', all, lower⟩ := (inside.stack reached).closes liveFrame framed.closed
    obtain ⟨more, same⟩ := keeps low left.height ⟨_, split.symm⟩
    -- the loop ends on the values that it left alone
    obtain ⟨_, rfl⟩ := List.append_inj' (same.trans split') (left.height.trans lower.length.symm)
    show TypedStack _ _ inner.stack
    rw [split']
    exact left.pushList all

/-- From the first arm of a conditional to the second one. -/
theorem nextArm_typed (typed : TypedContext agrees results base operands context) (here : context.At block)
    (live : operands.Live) (top : context.stack = value :: rest) (popTop : operands.popExpect .i32 = some condition)
    (opens : Opens decl condition below rest base) (all : Convert decl.results types)
    (framed : Framed validation decl.results decl body frame)
    (emits : Emits I (context.startThen block value rest decl types) body first)
    (closable : Closable first (context.ifLabel block value rest decl types).pos decl.results.length)
    (keeps : Keeps (base + below.types.length) rest first.stack)
    (standing : Standing (base + below.types.length) first frame)
    (inside : TypedContext agrees results (base + below.types.length) frame first) :
    TypedContext agrees results
      (base + below.types.length + if first.insertPoint = none then decl.results.length else 0)
      (.live decl.params.reverse) (first.startElse (context.ifLabel block value rest decl types)
        (context.function.blocks.length + 1) (rest.take decl.params.length)) := by
  obtain ⟨_, _, split, _, under⟩ := (typed.stack here.reachable).popExpect live popTop
  obtain ⟨rfl, rfl⟩ := List.cons.inj (top.symm.trans split)
  obtain ⟨front, low, split, params, left⟩ := under.opens (live.popExpect popTop).live opens
  have isTop : first.blockStack = context.ifLabel block value rest decl types :: context.blockStack := emits.blockStack
  have count : decl.params.length = front.length := by simpa using params.length_eq
  have taken : rest.take decl.params.length = front := by rw [split, count, List.take_left]
  rw [taken]
  exact startElse_typed (emits.placed (.inr ⟨_, startThen_at decl types value rest⟩)) inside standing framed.closed
    (isTop ▸ List.mem_cons_self) (exitLabel_hasTypes all) closable (opens.pos .if_ (by decide)) left.lower
    (keeps low left.height ⟨_, split.symm⟩) params

/-- Every run of validated code keeps the types. -/
theorem ValidRun.typed (run : ValidRun I holds validation base operands context exprs after final)
    (retypes : ∀ instr, holds instr → I.RetypesAt agrees validation.signature instr) (conforms : Conforms context validation)
    (typed : TypedContext agrees results base operands context) : TypedContext agrees results base after final := by
  induction run with
  | nil _ => exact typed
  | skipped nowhere _ => exact ⟨typed.logged, typed.agreed, fun reached => absurd nowhere reached⟩
  | @step validation _ _ _ _ _ _ _ _ expr _ ahead checked visited head tail ih =>
      have retypesHead : ∀ instr, expr = .instr instr → I.RetypesAt agrees validation.signature instr := by
        intro instr same
        rw [same] at visited
        exact retypes instr visited
      exact ih retypes (conforms.same head.blockStack head.locals) (head.typed ahead retypesHead conforms checked typed)
  | @block _ _ _ below _ _ context inner final block decl _ _ types ahead _ opens framed all run emits closable keeps
      tail ihRun ihTail =>
      have has : (context.blockLabel decl types).HasTypes decl.results := exitLabel_hasTypes all
      have inside := ihRun retypes (conforms.push rfl rfl has) (startBlock_typed typed ahead.here ahead.live opens)
      obtain ⟨_, low, split, _, left⟩ := (typed.stack ahead.here.reachable).opens ahead.live opens
      have top : inner.blockStack = context.blockLabel decl types :: context.blockStack := emits.blockStack
      have behind := leave_typed .block context.function.blocks.length (by decide)
        (emits.placed (.inr ⟨_, startBlock_at _ _ ahead.here⟩)) inside run.standing framed.closed
        (top ▸ List.mem_cons_self) has closable (opens.pos .block (by decide)) left
        (keeps low left.height ⟨_, split.symm⟩)
      exact ihTail retypes (conforms.same (by simp [leave, emits.blockStack, startBlock, openLabel])
        (by simp [emits.locals, startBlock, openLabel])) behind
  | @loop _ _ _ below _ _ context inner final block decl _ _ types ahead _ opens framed all run emits closable keeps
      tail ihRun ihTail =>
      have inside := ihRun retypes (conforms.push rfl rfl (loopLabel_hasTypes all))
        (startLoop_typed typed ahead.here ahead.live all opens)
      have behind := leaveLoop_typed typed ahead.here ahead.live opens framed inside run.standing keeps
      exact ihTail retypes (conforms.same (by simp [emits.blockStack, startLoop, openLoop, branchToLoop])
        (by simp [emits.locals, startLoop, openLoop, openParams, branchToLoop])) behind
  | @if_ _ _ _ _ below _ _ _ context first second final block value rest decl _ _ _ types ahead _ top popTop opens
      framedTrue framedFalse all runTrue emitsTrue closableTrue keepsTrue runFalse emitsFalse closableFalse keepsFalse tail
      ihTrue ihFalse ihTail =>
      have has : (context.ifLabel block value rest decl types).HasTypes decl.results := exitLabel_hasTypes all
      have insideTrue := ihTrue retypes (conforms.push rfl rfl has)
        (startThen_typed typed ahead.here ahead.live top popTop opens)
      have arm := nextArm_typed typed ahead.here ahead.live top popTop opens all framedTrue emitsTrue closableTrue keepsTrue
        runTrue.standing insideTrue
      have isTop : (first.startElse (context.ifLabel block value rest decl types) (context.function.blocks.length + 1)
          (rest.take decl.params.length)).blockStack = context.ifLabel block value rest decl types :: context.blockStack :=
        startElse_blockStack emitsTrue
      have inside := ihFalse retypes (conforms.push isTop (by
        simp [startElse, emitsTrue.locals, startThen, openLabel, branchToArms, compareZero]) has) arm
      obtain ⟨_, _, split, _, under⟩ := (typed.stack ahead.here.reachable).popExpect ahead.live popTop
      obtain ⟨rfl, rfl⟩ := List.cons.inj (top.symm.trans split)
      obtain ⟨_, low, split, _, left⟩ := under.opens (ahead.live.popExpect popTop).live opens
      have behind := leave_typed .else_ (context.function.blocks.length + 2) (by decide)
        (emitsFalse.placed (.inr ⟨_, startElse_placed emitsTrue⟩)) inside runFalse.standing framedFalse.closed
        ((emitsFalse.blockStack.trans isTop) ▸ List.mem_cons_self) has closableFalse (opens.pos .if_ (by decide)) left
        (keepsFalse low left.height ⟨_, split.symm⟩)
      exact ihTail retypes (conforms.same (by simp [leave, emitsFalse.blockStack, isTop])
        (by simp [emitsFalse.locals, startElse, emitsTrue.locals, startThen, openLabel, branchToArms, compareZero])) behind

end Runs

end WasmToLlvm.Block
