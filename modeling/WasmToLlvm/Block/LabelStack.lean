import WasmToLlvm.Block.PhiAgreement
import WasmToLlvm.Block.Places
import WasmToLlvm.Block.Progress

/-!
# The stack of labels

At every expression that is visited `blockStack` mirrors the control stack of
validation, and the visit of a construct returns with the labels and with what
stands below its operands as they were.
-/

set_option autoImplicit false

namespace WasmToLlvm.Block

open Llvm Wasm Library BlockContext

/-! ## Labels and constructs -/

section Labels

variable {Op : Type}

/-- The label that a branch of some depth selects. -/
def branchLabel (depth : Nat) : Build Op BreakoutTarget := do
  let index ← labelIndex depth .assertion
  labelAt index

/-- The label is that of a construct. -/
structure BreakoutTarget.Of (label : BreakoutTarget) (frame : Frame) : Prop where
  lty : label.lty = frame.lty
  sig : label.sig = frame.decl
  target : label.target = frame.target
  pos : label.pos = frame.base
  types : Convert frame.types (label.phis.map PHINode.type)

/-- The labels mirror the constructs around an expression, and a branch selects the
label of the construct at its depth, with the phis of the block that it goes to. -/
structure Mirrors (context : BlockContext Op) (frames : List Frame) : Prop where
  length : context.blockStack.length = frames.length
  selects : ∀ depth frame, frames[depth]? = some frame → ∃ label,
    branchLabel depth context = .ok (label, context) ∧ label.Of frame ∧ LabelPhis context.function label

theorem branchLabel_ok {context : BlockContext Op} {depth : Nat} {label : BreakoutTarget}
    (found : context.blockStack[depth]? = some label) : branchLabel depth context = .ok (label, context) := by
  rw [branchLabel, ← bind_pure (labelIndex depth .assertion >>= labelAt), bind_assoc, label_bind_ok]
  exact ⟨label, found, rfl⟩

theorem mirrors_of_labels {context : BlockContext Op} {frames : List Frame} (logged : context.Logged)
    (labels : List.Forall₂ BreakoutTarget.Of context.blockStack frames) : Mirrors context frames where
  length := labels.length_eq
  selects := by
    intro depth frame found
    have inside := (List.getElem?_eq_some_iff.mp found).1
    have there : context.blockStack[depth]? = some (context.blockStack.get ⟨depth, labels.length_eq ▸ inside⟩) :=
      List.getElem?_eq_getElem _
    have same := labels.get (labels.length_eq ▸ inside) inside
    rw [List.getElem?_eq_getElem inside, Option.some.injEq] at found
    refine ⟨_, branchLabel_ok there, ?_, logged.labelled _ (List.mem_of_getElem? there)⟩
    rw [← found]
    exact same

theorem resultPhis_types (next : Nat) (types : List Ty) :
    (resultPhis next types).map PHINode.type = types := by
  induction types generalizing next with
  | nil => rfl
  | cons type types ih => simp [resultPhis, ih]

theorem exitLabel_of {context : BlockContext Op} {lty : LabelType} {exit base : Nat} {decl : BlockDeclaration}
    {types : List Ty} (notLoop : lty ≠ .loop) (all : Convert decl.results types)
    (pos : labelPos lty context.stack decl = base) :
    (context.exitLabel lty exit decl types).Of ⟨lty, decl, exit, base⟩ where
  lty := rfl
  sig := rfl
  target := rfl
  pos := pos
  types := by
    rw [Frame.types, if_neg notLoop, exitLabel, resultPhis_types]
    exact all

theorem loopLabel_of {context : BlockContext Op} {entry base : Nat} {decl : BlockDeclaration}
    {types : List Ty} (all : Convert decl.params.reverse types)
    (pos : labelPos .loop context.stack decl = base) :
    (context.loopLabel entry decl types).Of ⟨.loop, decl, entry, base⟩ where
  lty := rfl
  sig := rfl
  target := rfl
  pos := pos
  types := by
    have phis : (context.loopLabel entry decl types).phis.map PHINode.type = types.reverse := by
      rw [loopLabel, paramPhis_eq, List.append_nil, List.map_reverse, resultPhis_types]
    rw [Frame.types, if_pos rfl, phis]
    exact List.forall₂_reverse_iff.mp (by rwa [List.reverse_reverse])

end Labels

variable {I : InstructionSet}

/-! ## Constructs before their bodies -/

section Open

variable {context opened : BlockContext I.Op} {block exit : Nat} {decl : BlockDeclaration} {stackPos : Int}
  {phis : List PHINode}

theorem beginBlock_starts {exitBlock : Nat}
    (opens : beginBlock (some block) decl context = .ok ((exitBlock, stackPos, phis), opened)) :
    exitBlock = context.function.blocks.length ∧ ∃ types, Convert decl.results types ∧
      opened = context.startBlock block decl types := by
  have bound : context.function.blocks.length < (context.newBlock "blk_exit").function.blocks.length := by
    simp
  have fresh : (context.newBlock "blk_exit").function.body context.function.blocks.length = [] := by
    simp [Function.body_eq_nil]
  rw [beginBlock, bind_run_ok (createBlock_run _ _)] at opens
  obtain ⟨⟨pos, labelled⟩, middle, entered, ran⟩ := bind_ok.mp opens
  obtain ⟨types, all, rfl, rfl, rfl⟩ := (enterBlock_label_ok (.inl rfl) bound fresh).mp entered
  cases ran
  exact ⟨rfl, types, all, rfl⟩

theorem beginLoop_starts {entryBlock : Nat} (here : context.At block)
    (opens : beginLoop exit decl context = .ok ((entryBlock, stackPos, phis), opened)) :
    entryBlock = context.function.blocks.length ∧ ∃ types, Convert decl.params.reverse types ∧
      decl.params.length ≤ context.stack.length ∧ opened = context.startLoop block decl types := by
  have there : (context.branchToLoop block decl).At context.function.blocks.length :=
    ⟨rfl, by simp [branchToLoop]⟩
  have fresh : (context.branchToLoop block decl).function.body context.function.blocks.length = [] := by
    have old : context.function.blocks.length ≠ block := by have := here.bound; omega
    simp [branchToLoop, Function.body_append_of_ne old, Function.body_eq_nil]
  rw [beginLoop, bind_run_ok (createBlock_run _ _), get_bind_run, (here.newBlock _).getInsertBlock,
    bind_run_ok (addEdge_run _ _ _ _ _),
    bind_run_ok (insert_run ((here.newBlock _).addEdge _ _ _ _) _),
    bind_run_ok (setInsertPoint_run _ _)] at opens
  obtain ⟨⟨pos, labelled⟩, middle, entered, ran⟩ := bind_ok.mp opens
  obtain ⟨types, all, enough, rfl, rfl, rfl⟩ := (enterBlock_loop_ok there fresh).mp entered
  cases ran
  exact ⟨rfl, types, all, enough, rfl⟩

theorem branchArms_starts {arms : ArmBlocks} (here : context.At block)
    (branches : branchArms decl context = .ok (arms, opened)) :
    ∃ value rest, context.stack = value :: rest ∧ decl.params.length ≤ rest.length ∧
      arms = ⟨context.function.blocks.length, context.function.blocks.length + 1,
        context.function.blocks.length + 2, rest.take decl.params.length⟩ ∧
      opened = context.branchToArms block value rest := by
  rw [branchArms, popStack_bind_ok] at branches
  obtain ⟨value, rest, top, ran⟩ := branches
  have atBlock := (((((compareZero_at here value rest).newBlock "ifblk").newBlock
    "elseblk").newBlock "ifblk_exit").addEdge .arm block context.function.blocks.length []).addEdge
      .arm block (context.function.blocks.length + 1) []
  by_cases short : rest.length < decl.params.length
  · rw [get_bind_run, withStack_stack, if_pos short] at ran
    cases ran
  · rw [get_bind_run] at ran
    simp only [withStack_stack, short, if_false, (here.withStack rest).getInsertBlock] at ran
    rw [bind_run_ok (createICmpNE_compareZero here value rest), bind_run_ok (createBlock_run _ _),
      bind_run_ok (createBlock_run _ _), bind_run_ok (createBlock_run _ _)] at ran
    simp only [newBlock_function, Function.blocks_length_newBlock, compareZero_blocks] at ran
    rw [bind_run_ok (addEdge_run _ _ _ _ _), bind_run_ok (addEdge_run _ _ _ _ _),
      bind_run_ok (insert_run atBlock _)] at ran
    cases ran
    exact ⟨value, rest, top, Nat.le_of_not_lt short, rfl, rfl⟩

/-- The start of a conditional's first arm. -/
structure ThenStarts (context : BlockContext I.Op) (block : Nat) (decl : BlockDeclaration) (arms : ArmBlocks)
    (value : Value) (rest : List Value) (types : List Ty) : Prop where
  top : context.stack = value :: rest
  enough : decl.params.length ≤ rest.length
  arms : arms = ⟨context.function.blocks.length, context.function.blocks.length + 1,
    context.function.blocks.length + 2, rest.take decl.params.length⟩
  all : Convert decl.results types

theorem beginThen_starts {arms : ArmBlocks} (here : context.At block)
    (opens : beginThen decl context = .ok ((arms, stackPos, phis), opened)) :
    ∃ value rest types, ThenStarts context block decl arms value rest types ∧
      stackPos = (context.ifLabel block value rest decl types).pos ∧
      phis = (context.ifLabel block value rest decl types).phis ∧
      opened = context.startThen block value rest decl types := by
  rw [beginThen] at opens
  obtain ⟨branched, middle, branches, ran⟩ := bind_ok.mp opens
  obtain ⟨value, rest, top, enough, rfl, rfl⟩ := branchArms_starts here branches
  let moved := (context.branchToArms block value rest).moveTo context.function.blocks.length
  have bound : context.function.blocks.length + 2 < moved.function.blocks.length := by
    simp [moved]
  have fresh : moved.function.body (context.function.blocks.length + 2) = [] := by
    have old : context.function.blocks.length + 2 ≠ block := by have := here.bound; omega
    simp [moved, branchToArms, compareZero, Function.body_append_of_ne old, Function.body_eq_nil]
  rw [bind_run_ok (setInsertPoint_run _ _)] at ran
  obtain ⟨⟨pos, labelled⟩, inside, entered, ran⟩ := bind_ok.mp ran
  obtain ⟨types, all, rfl, rfl, rfl⟩ := (enterBlock_label_ok (.inr (.inr rfl)) bound fresh).mp entered
  cases ran
  exact ⟨value, rest, types, ⟨top, enough, rfl, all⟩, rfl, rfl, rfl⟩

theorem beginElse_starts {arms : ArmBlocks} {body : List (Expr I.Instr)} (here : context.At block)
    (opens : beginElse I decl body context = .ok ((arms, stackPos, phis), opened)) :
    ∃ value rest types first, ThenStarts context block decl arms value rest types ∧
      Emits I (context.startThen block value rest decl types) body first ∧
      Closable first (context.ifLabel block value rest decl types).pos decl.results.length ∧
      opened = first.startElse (context.ifLabel block value rest decl types)
        (context.function.blocks.length + 1) (rest.take decl.params.length) := by
  rw [beginElse] at opens
  obtain ⟨⟨found, pos, labelled⟩, middle, openedThen, ran⟩ := bind_ok.mp opens
  obtain ⟨value, rest, types, starts, rfl, rfl, rfl⟩ := beginThen_starts here openedThen
  obtain rfl := starts.arms
  obtain ⟨_, first, visited, ran⟩ := bind_ok.mp ran
  have there : (context.startThen block value rest decl types).At context.function.blocks.length :=
    startThen_at decl types value rest
  have run := (visitControlInsts_ok body _ _ _ _ (.inr ⟨_, there, rfl⟩)).mp visited
  obtain ⟨_, after, left, ran⟩ := bind_ok.mp ran
  obtain ⟨closable, rfl⟩ := (leaveBlock_ok (context.ifLabel block value rest decl types)
    (run.placed (.inr ⟨_, there⟩)) (by rfl) (exitLabel_sized _ _ _ starts.all)).mp left
  rw [modify_bind_run, bind_run_ok (setInsertPoint_run _ _)] at ran
  obtain ⟨⟨pos, labelled⟩, inside, entered, ran⟩ := bind_ok.mp ran
  obtain ⟨label, labels, _, rfl, rfl, rfl⟩ := (enterBlock_else_ok (startElse_placed run)).mp entered
  cases ran
  exact ⟨value, rest, types, first, ⟨starts.top, starts.enough, rfl, starts.all⟩, run, closable, rfl⟩

theorem beginFunc_starts {func : Func I.Instr} {allocaBlock returnBlock : Nat}
    (opens : beginFunc I func ⟨.empty, none, [], [], [], []⟩ =
      .ok ((allocaBlock, returnBlock, stackPos, phis), opened)) :
    allocaBlock = 0 ∧ returnBlock = 1 ∧ ∃ params locals results, Convert func.decl.params params ∧
      Convert func.localTypes locals ∧ Convert func.decl.results results ∧
      opened = startFunc params locals results func.decl := by
  let entered : BlockContext I.Op :=
    (BlockContext.newBlock ⟨.empty, none, [], [], [], []⟩ "allocator").moveTo 0
  have here : entered.At 0 := moveTo_at (by simp [Function.empty])
  rw [beginFunc, bind_run_ok (createBlock_run _ _), bind_run_ok (setInsertPoint_run _ _)] at opens
  obtain ⟨_, middle, visited, ran⟩ := bind_ok.mp opens
  obtain ⟨params, paramsOk, rfl⟩ := (visitParams_ok here).mp visited
  obtain ⟨_, middle, visited, ran⟩ := bind_ok.mp ran
  obtain ⟨locals, localsOk, rfl⟩ := (visitLocals_ok (store_at here _)).mp visited
  have count : ((entered.store 0 (arguments 0 params)).store 0 (zeros locals)).function.blocks.length = 1 := by
    simp [entered, store, Function.empty]
  have bound : 1 < (prologue params locals : BlockContext I.Op).function.blocks.length := by
    simp [prologue_blocks_length]
  have fresh : (prologue params locals : BlockContext I.Op).function.body 1 = [] := by
    simp [prologue, store, Function.body_eq_nil, Function.empty]
  rw [bind_run_ok (createBlock_run _ _), count] at ran
  obtain ⟨⟨pos, labelled⟩, inside, labels, ran⟩ := bind_ok.mp ran
  obtain ⟨results, resultsOk, rfl, rfl, rfl⟩ :=
    (enterBlock_label_ok (.inr (.inl rfl)) bound fresh).mp labels
  cases ran
  exact ⟨rfl, rfl, params, locals, results, paramsOk, localsOk, resultsOk, rfl⟩

end Open

/-- A visit is a run of its expression. -/
theorem visitExpr_emits {context next : BlockContext I.Op} {block exit : Nat} {expr : Expr I.Instr}
    {entry : Option Nat} (here : context.At block)
    (ran : visitExpr I (some block) exit expr context = .ok (entry, next)) :
    Emits I context [expr] next ∧ Synced next entry := by
  have whole : visitControlInsts I exit [expr] (some block) context = .ok ((), next) := by
    rw [visitControlInsts_cons here, bind_run_ok ran]
    simp only [visitControlInsts, pure_run]
  refine ⟨(visitControlInsts_ok [expr] exit (some block) context next (.inr ⟨block, here, rfl⟩)).mp whole, ?_⟩
  by_cases bodyless : isBodyless expr
  · obtain ⟨rfl, step⟩ := (visitExpr_step_ok here bodyless).mp ran
    exact (step.synced here).imp_right fun there => ⟨_, there, rfl⟩
  cases expr with
  | block decl body =>
      obtain ⟨rfl, types, inner, _, run, _, rfl⟩ :=
        (visitExpr_block_ok (visitControlInsts_ok body) here).mp ran
      exact .inr ⟨_, afterBlock_at _ run, rfl⟩
  | loop decl body =>
      obtain ⟨types, inner, _, _, run, _, rfl, rfl⟩ :=
        (visitExpr_loop_ok (visitControlInsts_ok body) here).mp ran
      exact afterLoop_synced run
  | if_ decl body other =>
      obtain ⟨rfl, value, rest, types, first, second, _, _, _, runTrue, _, runFalse, _, rfl⟩ :=
        (visitExpr_if_ok (visitControlInsts_ok body) (visitControlInsts_ok other) here).mp ran
      exact .inr ⟨_, afterIf_at runTrue runFalse, rfl⟩
  | _ => exact absurd rfl bodyless

/-! ## Visits -/

/-- What the expressions inside some constructs are validated against. -/
def frameValidation (signature : I.Instr → Option FuncSignature) (func : Func I.Instr) (frames : List Frame) :
    ValidationContext I.Instr :=
  { labels := frames.map Frame.types, locals := func.locals, results := func.decl.results, signature }

/-- The visit returns with the labels as they were, and behind a construct the values
below its operands are those in front of it, at their positions. -/
def KeepsFrame (place : Place I) : Prop :=
  ∀ entry after, visitExpr I place.entry place.exit place.expr place.context = .ok (entry, after) →
    after.blockStack = place.context.blockStack ∧
      ∀ types, place.expr.taken = some types → types.length ≤ place.context.stack.length ∧
        place.context.stack.drop types.length <:+ after.stack

/-- What holds at an expression that is visited. -/
structure Framing (signature : I.Instr → Option FuncSignature) (func : Func I.Instr) (place : Place I) :
    Prop where
  checked : ∃ operands after,
    checkExpr (frameValidation signature func place.frames) place.expr operands = some after
  mirrors : Mirrors place.context place.frames
  keeps : KeepsFrame place

/-- What holds where the visit of a body stands. -/
structure Tracked (holds : I.Instr → Bool) (signature : I.Instr → Option FuncSignature) (func : Func I.Instr)
    (context : BlockContext I.Op) (entry : Option Nat) (exprs : List (Expr I.Instr)) (frames : List Frame) :
    Prop where
  synced : Synced context entry
  logged : context.Logged
  labels : List.Forall₂ BreakoutTarget.Of context.blockStack frames
  matched : Matches context (frameValidation signature func frames)
  checked : ∃ operands after base, checkExprs (frameValidation signature func frames) exprs operands = some after ∧
    Standing base context operands
  visited : context.insertPoint ≠ none → ExprList.visitedAll holds exprs

section Tracked

variable {holds : I.Instr → Bool} {signature : I.Instr → Option FuncSignature} {func : Func I.Instr}
  {context next opened : BlockContext I.Op} {entry entry' : Option Nat} {block exit : Nat}
  {expr : Expr I.Instr} {exprs body : List (Expr I.Instr)} {frames : List Frame}

/-- The first expression of a body at a place that can be reached. -/
structure First (holds : I.Instr → Bool) (signature : I.Instr → Option FuncSignature) (func : Func I.Instr)
    (context : BlockContext I.Op) (block : Nat) (expr : Expr I.Instr) (exprs : List (Expr I.Instr))
    (frames : List Frame) (operands next after : Operands) (base : Nat) : Prop where
  here : context.At block
  checked : checkExpr (frameValidation signature func frames) expr operands = some next
  rest : checkExprs (frameValidation signature func frames) exprs next = some after
  live : operands.Live
  height : context.stack.length = base + operands.types.length
  visited : Expr.visitedAll holds expr
  visitedRest : ¬expr.diverges → ExprList.visitedAll holds exprs

theorem Tracked.first (tracked : Tracked holds signature func context entry (expr :: exprs) frames)
    (reachable : context.getInsertBlock ≠ none) :
    ∃ block operands next after base, entry = some block ∧
      First holds signature func context block expr exprs frames operands next after base := by
  have reached : context.insertPoint ≠ none := by
    intro nowhere
    exact reachable (by rw [getInsertBlock, nowhere]; rfl)
  obtain ⟨block, here, rfl⟩ := tracked.synced.resolve_left reached
  obtain ⟨operands, after, base, checked, standing⟩ := tracked.checked
  obtain ⟨next, first, rest⟩ := checkExprs_cons checked
  obtain ⟨live, height⟩ := standing.live reached
  obtain ⟨visited, visitedRest⟩ := visitedAll_cons (tracked.visited reached)
  exact ⟨block, operands, next, after, base, rfl, here, first, rest, live, height, visited, visitedRest⟩

theorem First.tracksAt {operands next after : Operands} {base : Nat}
    (first : First holds signature func context block expr exprs frames operands next after base)
    (tracks : ∀ instr, holds instr → I.TracksAt signature instr) :
    ExprList.visitedAll holds [expr] ∧
      ∀ instr, holds instr → I.TracksAt (frameValidation signature func frames).signature instr := by
  refine ⟨?_, tracks⟩
  rw [ExprList.visitedAll, first.visited, ExprList.visitedAll, Bool.or_true]
  rfl

theorem First.single {operands next after : Operands} {base : Nat}
    (first : First holds signature func context block expr exprs frames operands next after base) :
    checkExprs (frameValidation signature func frames) [expr] operands = some next := by
  simp [checkExprs, first.checked]

/-- The rest of a body is visited from where its first expression ends. -/
theorem Tracked.behind (tracked : Tracked holds signature func context entry (expr :: exprs) frames)
    (tracks : ∀ instr, holds instr → I.TracksAt signature instr) (reachable : context.getInsertBlock ≠ none)
    (ran : visitExpr I entry exit expr context = .ok (entry', next)) :
    Tracked holds signature func next entry' exprs frames := by
  obtain ⟨block, operands, middle, after, base, rfl, first⟩ := tracked.first reachable
  obtain ⟨emits, synced⟩ := visitExpr_emits first.here ran
  obtain ⟨visited, tracksHere⟩ := first.tracksAt tracks
  have standing : Standing base context operands :=
    ⟨by rw [first.height]; exact Nat.le_add_right _ _, fun _ => ⟨first.live, first.height⟩⟩
  obtain ⟨left, _⟩ := emits.heights tracked.matched tracksHere visited first.single standing
  refine ⟨synced, emits.logged tracked.logged, emits.blockStack ▸ tracked.labels,
    tracked.matched.same emits.blockStack emits.locals, ⟨middle, after, base, first.rest, left⟩, ?_⟩
  intro reached
  refine first.visitedRest fun diverges => reached (emits.nowhere_iff.mpr (.inr ?_))
  rw [ExprList.diverges, diverges, Bool.true_or]

/-- A visit leaves the labels and what is below the operands of a construct alone. -/
theorem Tracked.framing (tracked : Tracked holds signature func context entry (expr :: exprs) frames)
    (tracks : ∀ instr, holds instr → I.TracksAt signature instr) (reachable : context.getInsertBlock ≠ none) :
    Framing signature func ⟨context, entry, exit, expr, frames⟩ := by
  obtain ⟨block, operands, middle, after, base, rfl, first⟩ := tracked.first reachable
  refine ⟨⟨operands, middle, first.checked⟩, mirrors_of_labels tracked.logged tracked.labels, ?_⟩
  intro entry next ran
  obtain ⟨emits, _⟩ := visitExpr_emits first.here ran
  obtain ⟨visited, tracksHere⟩ := first.tracksAt tracks
  refine ⟨emits.blockStack, fun types taken => ?_⟩
  obtain ⟨enough, own, checked⟩ := checkExpr_taken taken first.checked first.live
  have short : types.length ≤ context.stack.length := by
    rw [first.height]
    omega
  -- the construct in a frame of its own, above everything but its operands
  have standing : Standing (context.stack.length - types.length) context (Operands.live types) :=
    ⟨Nat.sub_le _ _, fun _ => ⟨Operands.live_live _, by rw [Operands.live_types_length]; omega⟩⟩
  have single : checkExprs (frameValidation signature func frames) [expr] (Operands.live types) = some own := by
    simp [checkExprs, checked]
  obtain ⟨_, keeps⟩ := emits.heights tracked.matched tracksHere visited single standing
  exact ⟨short, keeps _ (List.length_drop ..) (List.drop_suffix _ _)⟩

/-- The body of a construct is visited in a frame of its own. -/
theorem Tracked.enter (tracked : Tracked holds signature func context entry (expr :: exprs) frames)
    {frame : Frame} {label : BreakoutTarget} {final : Operands} {base : Nat}
    (entered : Entered (frameValidation signature func frames) frame.types frame.decl body final base opened)
    (there : opened.At block) (logged : opened.Logged)
    (labels : opened.blockStack = label :: context.blockStack) (isLabel : label.Of frame)
    (visited : ExprList.visitedAll holds body) :
    Tracked holds signature func opened (some block) body (frame :: frames) where
  synced := .inr ⟨block, there, rfl⟩
  logged := logged
  labels := labels ▸ .cons isLabel tracked.labels
  matched := entered.matched
  checked := ⟨_, final, base, entered.framed.checked, entered.standing⟩
  visited := fun _ => visited

section Constructs

variable {decl : BlockDeclaration} {other : List (Expr I.Instr)} {stackPos : Int} {phis : List PHINode}
  {arms : ArmBlocks}

theorem Tracked.intoBlock {exitBlock : Nat}
    (tracked : Tracked holds signature func context entry (.block decl body :: exprs) frames)
    (reachable : context.getInsertBlock ≠ none)
    (opens : beginBlock entry decl context = .ok ((exitBlock, stackPos, phis), opened)) :
    Tracked holds signature func opened entry body
      (⟨.block, decl, exitBlock, context.stack.length - decl.params.length⟩ :: frames) := by
  obtain ⟨block, operands, middle, after, base, rfl, first⟩ := tracked.first reachable
  obtain ⟨rfl, types, all, rfl⟩ := beginBlock_starts opens
  obtain ⟨below, final, popped, framed, rfl⟩ := checkExpr_block first.checked
  have length := (first.live.popList popped).length
  have entry : context.stack.length = context.stack.length - decl.params.length + decl.params.length := by
    have := first.height
    omega
  exact tracked.enter (startBlock_entered framed first.here tracked.matched all entry)
    (startBlock_at decl types first.here) (startBlock_logged tracked.logged) (by rfl)
    (exitLabel_of (by decide) all (labelPos_eq .block (by decide) entry)) first.visited

theorem Tracked.intoLoop {entryBlock : Nat}
    (tracked : Tracked holds signature func context entry (.loop decl body :: exprs) frames)
    (reachable : context.getInsertBlock ≠ none)
    (opens : beginLoop exit decl context = .ok ((entryBlock, stackPos, phis), opened)) :
    Tracked holds signature func opened (some entryBlock) body
      (⟨.loop, decl, entryBlock, context.stack.length - decl.params.length⟩ :: frames) := by
  obtain ⟨block, operands, middle, after, base, rfl, first⟩ := tracked.first reachable
  obtain ⟨rfl, types, all, enough, rfl⟩ := beginLoop_starts first.here opens
  obtain ⟨below, final, popped, framed, rfl⟩ := checkExpr_loop first.checked
  have entry : context.stack.length = context.stack.length - decl.params.length + decl.params.length := by
    omega
  have isLabel : ((context.branchToLoop block decl).loopLabel context.function.blocks.length decl types).Of
      ⟨.loop, decl, context.function.blocks.length, context.stack.length - decl.params.length⟩ :=
    loopLabel_of all (labelPos_eq .loop (by decide) entry)
  exact tracked.enter (startLoop_entered block framed tracked.matched all entry) (startLoop_at decl types)
    (startLoop_logged first.here tracked.logged all enough) (by rfl) isLabel first.visited

theorem Tracked.intoThen
    (tracked : Tracked holds signature func context entry (.if_ decl body other :: exprs) frames)
    (reachable : context.getInsertBlock ≠ none)
    (opens : beginThen decl context = .ok ((arms, stackPos, phis), opened)) :
    Tracked holds signature func opened (some arms.ifBlock) body
      (⟨.if_, decl, arms.exitBlock, context.stack.length - 1 - decl.params.length⟩ :: frames) := by
  obtain ⟨block, operands, middle, after, base, rfl, first⟩ := tracked.first reachable
  obtain ⟨value, rest, types, starts, _, _, rfl⟩ := beginThen_starts first.here opens
  obtain rfl := starts.arms
  obtain ⟨condition, below, _, _, popTop, popped, framed, _, rfl⟩ := checkExpr_if first.checked
  have entry : rest.length = context.stack.length - 1 - decl.params.length + decl.params.length := by
    have := starts.enough
    rw [starts.top, List.length_cons]
    omega
  exact tracked.enter (startThen_entered block value framed tracked.matched starts.all entry)
    (startThen_at decl types value rest) (startThen_logged first.here tracked.logged value rest) (by rfl)
    (exitLabel_of (by decide) starts.all (labelPos_eq .if_ (by decide) entry))
    (Bool.and_eq_true_iff.mp first.visited).1

/-- The second arm takes over the label of the first one. -/
theorem Tracked.intoElse
    (tracked : Tracked holds signature func context entry (.if_ decl body other :: exprs) frames)
    (tracks : ∀ instr, holds instr → I.TracksAt signature instr) (reachable : context.getInsertBlock ≠ none)
    (opens : beginElse I decl body context = .ok ((arms, stackPos, phis), opened)) :
    Tracked holds signature func opened (some arms.elseBlock) other
      (⟨.if_, decl, arms.exitBlock, context.stack.length - 1 - decl.params.length⟩ :: frames) := by
  obtain ⟨block, operands, middle, after, base, rfl, first⟩ := tracked.first reachable
  obtain ⟨value, rest, types, inner, starts, run, closable, rfl⟩ := beginElse_starts first.here opens
  obtain rfl := starts.arms
  obtain ⟨condition, below, _, _, popTop, popped, framed, framedElse, rfl⟩ := checkExpr_if first.checked
  have entry : rest.length = context.stack.length - 1 - decl.params.length + decl.params.length := by
    have := starts.enough
    rw [starts.top, List.length_cons]
    omega
  have entered := startThen_entered block value framed tracked.matched starts.all entry
  have visited := Bool.and_eq_true_iff.mp first.visited
  obtain ⟨inside, _⟩ := run.heights entered.matched tracks visited.1 framed.checked entered.standing
  have topTrue : inner.blockStack = context.ifLabel block value rest decl types :: context.blockStack :=
    run.blockStack
  have left := leave_logged .if_ (run.placed (.inr ⟨_, startThen_at _ _ _ _⟩))
    (run.logged (startThen_logged first.here tracked.logged value rest)) (topTrue ▸ List.mem_cons_self)
    (exitLabel_sized _ _ _ starts.all) closable
  exact tracked.enter (startElse_entered framedElse tracked.matched starts.all run entry inside.bottom)
    (startElse_placed run) left (startElse_blockStack run)
    (exitLabel_of (by decide) starts.all (labelPos_eq .if_ (by decide) entry)) visited.2

end Constructs

/-- The invariant holds at every expression that is visited in a body. -/
theorem Visits.framing {place : Place I} (visits : Visits I context entry exit exprs frames place)
    (tracks : ∀ instr, holds instr → I.TracksAt signature instr)
    (tracked : Tracked holds signature func context entry exprs frames) : Framing signature func place := by
  induction visits with
  | here reachable => exact tracked.framing tracks reachable
  | behind reachable ran _ ih => exact ih (tracked.behind tracks reachable ran)
  | block reachable opens _ ih => exact ih (tracked.intoBlock reachable opens)
  | loop reachable opens _ ih => exact ih (tracked.intoLoop reachable opens)
  | then_ reachable opens _ ih => exact ih (tracked.intoThen reachable opens)
  | else_ reachable opens _ ih => exact ih (tracked.intoElse tracks reachable opens)

/-- The invariant holds at every expression that is visited in a validated function whose
visited instructions follow their signatures. -/
theorem FuncVisits.framing {place : Place I} (visits : FuncVisits I func place)
    (validated : Validated signature func) (tracks : ∀ instr, holds instr → I.TracksAt signature instr)
    (visited : ExprList.visitedAll holds func.exprs) : Framing signature func place := by
  obtain ⟨allocaBlock, returnBlock, stackPos, phis, opened, opens, visits⟩ := visits
  obtain ⟨rfl, rfl, params, locals, results, paramsOk, localsOk, resultsOk, rfl⟩ := beginFunc_starts opens
  obtain ⟨operands, checked, _⟩ := validated_iff.mp validated
  refine visits.framing tracks ⟨.inr ⟨0, startFunc_at _ _ _ _, rfl⟩, startFunc_logged _ _ _ _, ?_,
    startFunc_matches paramsOk localsOk resultsOk, ⟨_, operands, 0, checked, startFunc_standing⟩,
    fun _ => visited⟩
  exact .cons (exitLabel_of (by decide) resultsOk (by rfl)) .nil

end Tracked

/-- The stacks in front of the second expression of a body and behind it. -/
def stacksAround (I : InstructionSet) (func : Func I.Instr) (first second : Expr I.Instr) :
    Build I.Op (List Value × List Value) := do
  let (allocaBlock, returnBlock, _, _) ← beginFunc I func
  let entry ← visitExpr I (some allocaBlock) returnBlock first
  let before ← get
  let _ ← visitExpr I entry returnBlock second
  let after ← get
  return (before.stack, after.stack)

theorem stacksAround_visits {func : Func I.Instr} {first second : Expr I.Instr}
    {rest : List (Expr I.Instr)} {before after : List Value}
    (exprs : func.exprs = first :: second :: rest) (stays : first.diverges = false)
    (around : (stacksAround I func first second ⟨.empty, none, [], [], [], []⟩).toOption.map Prod.fst =
      some (before, after)) :
    ∃ place entry final, FuncVisits I func place ∧ place.expr = second ∧ place.context.stack = before ∧
      visitExpr I place.entry place.exit place.expr place.context = .ok (entry, final) ∧
      final.stack = after := by
  obtain ⟨final, ran⟩ : ∃ final, stacksAround I func first second ⟨.empty, none, [], [], [], []⟩ =
      .ok ((before, after), final) := by
    cases ran : stacksAround I func first second ⟨.empty, none, [], [], [], []⟩ with
    | error error =>
        rw [ran] at around
        cases around
    | ok pair =>
        rw [ran] at around
        exact ⟨pair.2, congrArg Except.ok (Prod.ext (Option.some.inj around) rfl)⟩
  obtain ⟨⟨allocaBlock, returnBlock, stackPos, phis⟩, opened, opens, ran⟩ := bind_ok.mp ran
  obtain ⟨entry, next, ranFirst, ran⟩ := bind_ok.mp ran
  rw [get_bind_run] at ran
  obtain ⟨entry', last, ranSecond, ran⟩ := bind_ok.mp ran
  rw [get_bind_run] at ran
  cases ran
  have here : opened.At allocaBlock := by
    obtain ⟨rfl, rfl, params, locals, results, _, _, _, rfl⟩ := beginFunc_starts opens
    exact startFunc_at _ _ _ _
  obtain ⟨emits, _⟩ := visitExpr_emits here ranFirst
  have reached : next.getInsertBlock ≠ none := by
    rw [getInsertBlock, ne_eq, Option.map_eq_none_iff, emits.nowhere_iff, ExprList.diverges, stays]
    simp [here.reachable, ExprList.diverges]
  refine ⟨⟨next, entry, returnBlock, second, [⟨.func, func.decl, returnBlock, 0⟩]⟩, entry', final, ?_, rfl,
    rfl, ranSecond, rfl⟩
  refine ⟨allocaBlock, returnBlock, stackPos, phis, opened, opens, ?_⟩
  rw [exprs]
  exact .behind (by simp [here.getInsertBlock]) ranFirst (.here reached)

end WasmToLlvm.Block
