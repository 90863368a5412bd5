import WasmToLlvm.Block.Phis

/-!
# Extensions of a translation

A run only adds: instructions behind those of the current block, blocks, phis in
new blocks, entries and edges. Blocks that are not the current one stay as they
are until the run creates a block of its own.
-/

set_option autoImplicit false

namespace WasmToLlvm.Block

open Llvm Wasm Library BlockContext

namespace BlockContext

variable {Op : Type}

structure Extends (context larger : BlockContext Op) : Prop where
  grows : context.function.Grows larger.function
  edges : context.edges <+: larger.edges
  phis : ∀ block < context.function.blocks.length, ∀ id index type,
    PhiAt larger.function block id index type → PhiAt context.function block id index type
  cases : ∀ switch < context.function.insts.length,
    larger.function.casesOf switch = context.function.casesOf switch

section Extends

variable {base context larger : BlockContext Op}

theorem Extends.refl (context : BlockContext Op) : context.Extends context :=
  ⟨.refl _, List.prefix_refl _, fun _ _ _ _ _ phi => phi, fun _ _ => rfl⟩

theorem Extends.trans (first : base.Extends context) (second : context.Extends larger) :
    base.Extends larger where
  grows := first.grows.trans second.grows
  edges := first.edges.trans second.edges
  phis := fun block bound id index type phi => first.phis block bound id index type
    (second.phis block (Nat.lt_of_lt_of_le bound first.grows.count) id index type phi)
  cases := fun switch old =>
    (second.cases switch (Nat.lt_of_lt_of_le old first.grows.insts.length_le)).trans
      (first.cases switch old)

/-- Only the function and the history count. -/
theorem Extends.congr (extends_ : base.Extends context) (function : larger.function = context.function)
    (edges : larger.edges = context.edges) : base.Extends larger :=
  ⟨function ▸ extends_.grows, edges ▸ extends_.edges, function ▸ extends_.phis,
    function ▸ extends_.cases⟩

theorem Extends.newBlock (extends_ : base.Extends context) (name : String) :
    base.Extends (context.newBlock name) where
  grows := extends_.grows.newBlock name
  edges := extends_.edges
  phis := fun block bound id index type phi =>
    extends_.phis block bound id index type (phiAt_newBlock.mp phi)
  cases := extends_.cases

theorem Extends.emitAll (extends_ : base.Extends context) (numbered : context.function.Numbered)
    (block : Nat) {insts : List (Inst Op)} (other : ∀ inst ∈ insts, inst.isPhi = false) :
    base.Extends (context.emitAll block insts) where
  grows := extends_.grows.appendAll block insts
  edges := extends_.edges
  phis := fun target bound id index type phi =>
    extends_.phis target bound id index type ((phiAt_appendAll_other numbered other).mp phi)
  cases := fun switch old =>
    (Function.casesOf_congr (Function.cases_appendAll _ _ _) switch).trans (extends_.cases switch old)

/-- Phis in a new block. -/
theorem Extends.emitPhis (extends_ : base.Extends context) (numbered : context.function.Numbered)
    {block : Nat} (fresh : base.function.blocks.length ≤ block) (insts : List (Inst Op)) :
    base.Extends (context.emitAll block insts) where
  grows := extends_.grows.appendAll block insts
  edges := extends_.edges
  phis := by
    intro target bound id index type phi
    rcases phi.of_appendAll numbered with old | ⟨here, _⟩
    · exact extends_.phis target bound id index type old
    · omega
  cases := fun switch old =>
    (Function.casesOf_congr (Function.cases_appendAll _ _ _) switch).trans (extends_.cases switch old)

theorem Extends.addIncomings (extends_ : base.Extends context) (entries : List (Nat × Value))
    (from? : Option Nat) : base.Extends (context.addIncomings entries from?) where
  grows := extends_.grows.addIncomings entries from?
  edges := extends_.edges
  phis := fun block bound id index type phi =>
    extends_.phis block bound id index type ⟨phi.member, phi.found⟩
  cases := extends_.cases

theorem Extends.addCase (extends_ : base.Extends context) {switch : Nat}
    (fresh : base.function.insts.length ≤ switch) (value target : Nat) :
    base.Extends (context.addCase switch value target) where
  grows := extends_.grows.addCase switch value target
  edges := extends_.edges
  phis := fun block bound id index type phi =>
    extends_.phis block bound id index type ⟨phi.member, phi.found⟩
  cases := by
    intro other old
    have different : switch ≠ other := by omega
    have same : (context.addCase switch value target).function.casesOf other =
        context.function.casesOf other := by
      simp [Function.casesOf, Function.addCase, different]
    rw [same, extends_.cases other old]

theorem Extends.addEdge (extends_ : base.Extends context) (kind : EdgeKind) (source target : Nat)
    (carried : List Value) : base.Extends (context.addEdge kind source target carried) where
  grows := extends_.grows
  edges := extends_.edges.trans (List.prefix_append _ _)
  phis := extends_.phis
  cases := extends_.cases

theorem Extends.addTargets (extends_ : base.Extends context) {switch : Nat}
    (fresh : base.function.insts.length ≤ switch) (source i : Nat) (labels : List BreakoutTarget) :
    base.Extends (context.addTargets switch source labels i) := by
  induction labels generalizing context i with
  | nil => exact extends_
  | cons label labels ih =>
      exact ih (((extends_.addCase fresh _ _).addIncomings _ _).addEdge _ _ _ _) (i + 1)

end Extends

end BlockContext

section Blocks

variable {Op : Type} {base context : BlockContext Op} {block : Nat}

theorem terminator_notPhi (inst : Inst Op) (terminator : inst.isTerminator) :
    ∀ other ∈ [inst], other.isPhi = false := by
  intro other member
  obtain rfl := List.mem_singleton.mp member
  cases other <;> first | rfl | cases terminator

theorem compareZero_extends (extends_ : base.Extends context) (numbered : context.function.Numbered)
    (block : Nat) (value : Value) (rest : List Value) :
    base.Extends (context.compareZero block value rest) := by
  have same : base.Extends (context.withStack rest) := extends_.congr rfl rfl
  exact same.emitAll numbered block (by simp [Inst.isPhi])

end Blocks

variable {I : InstructionSet}

section Starts

variable {base context : BlockContext I.Op} {block : Nat} {decl : BlockDeclaration} {types : List Ty}

theorem branchToArms_extends (block : Nat) (extends_ : base.Extends context) (logged : context.Logged)
    (value : Value) (rest : List Value) :
    base.Extends (context.branchToArms block value rest) := by
  have numbered := logged.traced.numbered
  have compared := compareZero_extends extends_ numbered block value rest
  have created := ((((compared.newBlock "ifblk").newBlock "elseblk").newBlock "ifblk_exit").addEdge .arm
    block context.function.blocks.length []).addEdge .arm block (context.function.blocks.length + 1) []
  refine created.emitAll ?_ block (terminator_notPhi (.condBr _ _ _) rfl)
  exact (((numbered.appendAll block [_]).newBlock _).newBlock _).newBlock _

theorem startThen_extends (extends_ : base.Extends context) (logged : context.Logged) (value : Value)
    (rest : List Value) : base.Extends (context.startThen block value rest decl types) := by
  have branched := branchToArms_extends block extends_ logged value rest
  have numbered : (context.branchToArms block value rest).function.Numbered :=
    ((((logged.traced.numbered.appendAll block [_]).newBlock _).newBlock _).newBlock _).append _ _
  refine Extends.congr (branched.emitPhis numbered ?_ (phiInsts 0 types)) rfl rfl
  have grown := extends_.grows.count
  omega

theorem startBlock_extends (extends_ : base.Extends context) (logged : context.Logged) :
    base.Extends (context.startBlock block decl types) := by
  have numbered := logged.traced.numbered.newBlock "blk_exit"
  exact Extends.congr ((extends_.newBlock "blk_exit").emitPhis numbered extends_.grows.count
    (phiInsts 0 types)) rfl rfl

theorem startLoop_extends (extends_ : base.Extends context) (logged : context.Logged) :
    base.Extends (context.startLoop block decl types) := by
  have numbered := logged.traced.numbered.newBlock "loop_entry"
  have branched := ((extends_.newBlock "loop_entry").addEdge .loopEntry block
    context.function.blocks.length (carriedValues context.stack decl.params.length)).emitAll numbered block
      (terminator_notPhi (.br context.function.blocks.length) rfl)
  exact Extends.congr ((branched.emitPhis (numbered.append block _) extends_.grows.count
    (paramInsts types)).addIncomings _ _) rfl rfl

theorem flowInto_extends (extends_ : base.Extends context) (logged : context.Logged)
    {label : BreakoutTarget} (member : label ∈ context.blockStack) :
    base.Extends (context.flowInto label.target label.phis) := by
  rw [flowInto]
  cases context.getInsertBlock with
  | none => exact extends_.congr rfl rfl
  | some block =>
      refine ((extends_.addIncomings _ _).addEdge _ _ _ _).emitAll ?_ block (terminator_notPhi (.br _) rfl)
      exact logged.traced.numbered.addIncomings _ _ ((logged.labelled label member).old context.stack)

end Starts

theorem leave_extends {base inner : BlockContext I.Op} {label : BreakoutTarget} (lty : LabelType)
    (extends_ : base.Extends inner) (logged : inner.Logged) (member : label ∈ inner.blockStack) :
    base.Extends (inner.leave lty label) :=
  (flowInto_extends extends_ logged member).congr rfl rfl

theorem Step.extends {base context next : BlockContext I.Op} {block : Nat} {expr : Expr I.Instr}
    (step : Step I context block expr next) (logged : context.Logged)
    (extends_ : base.Extends context) : base.Extends next := by
  have numbered := logged.traced.numbered
  have reached : ∀ {depth : Nat} {label : BreakoutTarget} {rest : List Value} (stack : List Value),
      Reaches (context.withStack rest) depth label →
        ∀ entry ∈ entriesFor label.phis stack, entry.1 < context.function.insts.length :=
    fun stack reaches => (logged.labelled _ (List.mem_of_getElem? reaches.found)).old stack
  cases step with
  | straight code ran =>
      refine Extends.congr (extends_.emitAll numbered block fun inst member => ?_) rfl rfl
      obtain ⟨plain, _, rfl⟩ := List.mem_map.mp member
      rfl
  | unreachable =>
      exact Extends.congr (extends_.emitAll numbered block (terminator_notPhi .unreachable rfl)) rfl rfl
  | br branches =>
      refine Extends.congr (((extends_.addIncomings _ _).addEdge _ _ _ _).emitAll ?_ block
        (terminator_notPhi (.br _) rfl)) rfl rfl
      exact numbered.addIncomings _ _ (reached _ branches.toReaches)
  | return_ outermost branches =>
      refine Extends.congr (((extends_.addIncomings _ _).addEdge _ _ _ _).emitAll ?_ block
        (terminator_notPhi (.br _) rfl)) rfl rfl
      exact numbered.addIncomings _ _ (reached _ branches.toReaches)
  | @brIf _ value rest label top branches =>
      have compared := compareZero_extends extends_ numbered block value rest
      refine Extends.congr ((((compared.newBlock "brif_next").addIncomings _ _).addEdge _ _ _ _).addEdge
        _ _ _ _ |>.emitAll ?_ block (terminator_notPhi (.condBr _ _ _) rfl)) rfl rfl
      refine ((numbered.appendAll block [_]).newBlock _).addIncomings _ _ fun entry member => ?_
      have old := reached rest branches.toReaches entry member
      rw [Function.insts_newBlock, Function.insts_appendAll, List.length_append]
      omega
  | @brTable _ _ value rest label labels top branches all =>
      have started : base.Extends (context.startTable block value rest label) := by
        refine Extends.congr (((extends_.addIncomings _ _).addEdge _ _ _ _).emitAll ?_ block
          (terminator_notPhi (.switch value label.target) rfl)) rfl rfl
        exact numbered.addIncomings _ _ (reached rest branches.toReaches)
      exact started.addTargets extends_.grows.insts.length_le _ _ _

/-! ## Runs -/

/-- A run only adds. -/
theorem Emits.extends {base context final : BlockContext I.Op} {exprs : List (Expr I.Instr)}
    (emits : Emits I context exprs final) (logged : context.Logged)
    (extends_ : base.Extends context) : base.Extends final := by
  induction emits with
  | nil => exact extends_
  | skipped nowhere => exact extends_
  | step here head tail ih => exact ih (head.logged here logged) (head.extends logged extends_)
  | @block context inner _ block decl _ _ types here all run closable tail ihRun ihTail =>
      have entered : (context.startBlock block decl types).Logged := startBlock_logged logged
      have top : inner.blockStack = context.blockLabel decl types :: context.blockStack := run.blockStack
      have member := top ▸ List.mem_cons_self
      have left := leave_logged .block (run.placed (.inr ⟨_, startBlock_at _ _ here⟩))
        (run.logged entered) member (exitLabel_sized _ _ _ all) closable
      exact ihTail left ((leave_extends .block (ihRun entered (startBlock_extends extends_ logged))
        (run.logged entered) member).congr rfl rfl)
  | loop here all enough run closable tail ihRun ihTail =>
      have entered := startLoop_logged here logged all enough
      refine ihTail ((run.logged entered).subset fun label member => List.mem_of_mem_tail member) ?_
      exact (ihRun entered (startLoop_extends extends_ logged)).congr rfl rfl
  | @if_ context first second _ block value rest decl _ _ _ types here top enough all runTrue
      closableTrue runFalse closableFalse tail ihTrue ihFalse ihTail =>
      have entered : (context.startThen block value rest decl types).Logged :=
        startThen_logged here logged value rest
      have topTrue : first.blockStack = context.ifLabel block value rest decl types ::
        context.blockStack := runTrue.blockStack
      have memberTrue := topTrue ▸ List.mem_cons_self
      have enteredFalse := leave_logged .if_ (runTrue.placed (.inr ⟨_, startThen_at _ _ _ _⟩))
        (runTrue.logged entered) memberTrue (exitLabel_sized _ _ _ all) closableTrue
      have first_ := leave_extends .if_ (ihTrue entered (startThen_extends extends_ logged value rest))
        (runTrue.logged entered) memberTrue
      have topFalse : second.blockStack = context.ifLabel block value rest decl types ::
        context.blockStack := runFalse.blockStack.trans (startElse_blockStack runTrue)
      have memberFalse := topFalse ▸ List.mem_cons_self
      have left := leave_logged .else_ (runFalse.placed (.inr ⟨_, startElse_placed runTrue⟩))
        (runFalse.logged enteredFalse) memberFalse (exitLabel_sized _ _ _ all) closableFalse
      exact ihTail left ((leave_extends .else_ (ihFalse enteredFalse (first_.congr rfl rfl))
        (runFalse.logged enteredFalse) memberFalse).congr rfl rfl)

/-! ## Blocks that a run leaves alone -/

/-- A block that exists already and is not the current one. -/
structure Aside {Op : Type} (target : Nat) (ids : List Nat) (context : BlockContext Op) : Prop where
  bound : target < context.function.blocks.length
  body : context.function.body target = ids
  elsewhere : context.getInsertBlock ≠ some target

section Aside

variable {Op : Type} {target block : Nat} {ids : List Nat} {context larger : BlockContext Op}

theorem Aside.at (aside : Aside target ids context) (here : context.At block) : target ≠ block := by
  rintro rfl
  exact aside.elsewhere here.getInsertBlock

theorem Aside.moveTo (bound : target < context.function.blocks.length)
    (body : context.function.body target = ids) (different : target ≠ block) :
    Aside target ids (context.moveTo block) :=
  ⟨bound, body, by simpa using different.symm⟩

theorem body_addTargets (switch source i : Nat) (labels : List BreakoutTarget) :
    (context.addTargets switch source labels i).function.body target = context.function.body target := by
  induction labels generalizing context i with
  | nil => rfl
  | cons label labels ih => exact ih (i + 1)

theorem body_flowInto (aside : Aside target ids context) (exit : Nat) (phis : List PHINode) :
    (context.flowInto exit phis).function.body target = ids := by
  rw [flowInto]
  cases here : context.getInsertBlock with
  | none => exact aside.body
  | some block =>
      have different : target ≠ block := by
        rintro rfl
        exact aside.elsewhere here
      exact (Function.body_appendAll_of_ne different).trans aside.body

end Aside

theorem Step.body {context next : BlockContext I.Op} {block target : Nat} {expr : Expr I.Instr}
    (step : Step I context block expr next) (different : target ≠ block) :
    next.function.body target = context.function.body target := by
  cases step with
  | straight _ _ => exact Function.body_appendAll_of_ne different
  | unreachable => exact Function.body_append_of_ne different
  | br _ => exact Function.body_append_of_ne different
  | return_ _ _ => exact Function.body_append_of_ne different
  | brIf _ _ =>
      refine (Function.body_append_of_ne different).trans ?_
      exact (Function.body_newBlock _ _ _).trans (Function.body_append_of_ne different)
  | brTable _ _ _ => exact (body_addTargets _ _ _ _).trans (Function.body_append_of_ne different)

theorem Step.aside {context next : BlockContext I.Op} {block target : Nat} {ids : List Nat}
    {expr : Expr I.Instr} (step : Step I context block expr next) (here : context.At block)
    (aside : Aside target ids context) : Aside target ids next where
  bound := Nat.lt_of_lt_of_le aside.bound step.blocks_le
  body := (step.body (aside.at here)).trans aside.body
  elsewhere := by
    rcases step.synced here with nowhere | there
    · simp [getInsertBlock, nowhere]
    · rw [there.getInsertBlock]
      have different := aside.at here
      have bound := aside.bound
      intro same
      rw [Option.some.injEq] at same
      cases expr <;> simp only [stepEntry] at same <;> omega

theorem startBlock_aside {context : BlockContext I.Op} {block target : Nat} {ids : List Nat}
    {decl : BlockDeclaration} {types : List Ty} (here : context.At block)
    (aside : Aside target ids context) : Aside target ids (context.startBlock block decl types) := by
  have bound := aside.bound
  refine ⟨by rw [startBlock_blocks_length]; omega, ?_, ?_⟩
  · refine (Function.body_appendAll_of_ne (Nat.ne_of_lt bound)).trans ?_
    exact (Function.body_newBlock _ _ _).trans aside.body
  · rw [(startBlock_at _ _ here).getInsertBlock, ← here.getInsertBlock]
    exact aside.elsewhere

theorem startLoop_aside {context : BlockContext I.Op} {block target : Nat} {ids : List Nat}
    {decl : BlockDeclaration} {types : List Ty} (here : context.At block)
    (aside : Aside target ids context) : Aside target ids (context.startLoop block decl types) := by
  have bound := aside.bound
  refine ⟨by rw [startLoop_blocks_length]; omega, ?_, ?_⟩
  · refine (Function.body_appendAll_of_ne (Nat.ne_of_lt bound)).trans ?_
    refine (Function.body_append_of_ne (aside.at here)).trans ?_
    exact (Function.body_newBlock _ _ _).trans aside.body
  · rw [(startLoop_at _ _).getInsertBlock]
    simp only [ne_eq, Option.some.injEq]
    omega

theorem body_branchToArms {Op : Type} {context : BlockContext Op} {block target : Nat} (value : Value)
    (rest : List Value) (different : target ≠ block) :
    (context.branchToArms block value rest).function.body target = context.function.body target := by
  refine (Function.body_append_of_ne different).trans ?_
  simp only [addEdge_function, newBlock_function, Function.body_newBlock]
  exact Function.body_append_of_ne different

theorem startThen_aside {context : BlockContext I.Op} {block target : Nat} {ids : List Nat}
    {value : Value} {rest : List Value} {decl : BlockDeclaration} {types : List Ty}
    (here : context.At block) (aside : Aside target ids context) :
    Aside target ids (context.startThen block value rest decl types) := by
  have bound := aside.bound
  refine ⟨by rw [startThen_blocks_length]; omega, ?_, ?_⟩
  · refine (Function.body_appendAll_of_ne (by omega)).trans ?_
    exact (body_branchToArms value rest (aside.at here)).trans aside.body
  · rw [(startThen_at _ _ _ _).getInsertBlock]
    simp only [ne_eq, Option.some.injEq]
    omega

theorem leave_aside {inner : BlockContext I.Op} {target exit : Nat} {ids : List Nat}
    (lty : LabelType) (label : BreakoutTarget) (aside : Aside target ids inner)
    (different : target ≠ exit) : Aside target ids ((inner.leave lty label).moveTo exit) := by
  refine .moveTo ?_ (body_flowInto aside _ _) different
  rw [leave_blocks_length]
  exact aside.bound

theorem startElse_aside {first : BlockContext I.Op} {target elseBlock : Nat} {ids : List Nat}
    {label : BreakoutTarget} (params : List Value) (aside : Aside target ids first)
    (different : target ≠ elseBlock) : Aside target ids (first.startElse label elseBlock params) := by
  obtain ⟨bound, body, elsewhere⟩ := leave_aside .if_ label aside different
  exact ⟨bound, body, elsewhere⟩

/-- A run leaves the blocks alone that exist before it, except the current one. -/
theorem Emits.aside {context final : BlockContext I.Op} {exprs : List (Expr I.Instr)} {target : Nat}
    {ids : List Nat} (emits : Emits I context exprs final) (aside : Aside target ids context) :
    Aside target ids final := by
  induction emits with
  | nil => exact aside
  | skipped nowhere => exact aside
  | step here head tail ih => exact ih (head.aside here aside)
  | block here all run closable tail ihRun ihTail =>
      exact ihTail (leave_aside .block _ (ihRun (startBlock_aside here aside)) (Nat.ne_of_lt aside.bound))
  | loop here all enough run closable tail ihRun ihTail =>
      obtain ⟨bound, body, elsewhere⟩ := ihRun (startLoop_aside here aside)
      exact ihTail ⟨bound, body, elsewhere⟩
  | if_ here top enough all runTrue closableTrue runFalse closableFalse tail ihTrue ihFalse ihTail =>
      have bound := aside.bound
      have second := ihFalse (startElse_aside _ (ihTrue (startThen_aside here aside)) (by omega))
      exact ihTail (leave_aside .else_ _ second (by omega))

end WasmToLlvm.Block
