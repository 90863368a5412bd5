import WasmToLlvm.Block.Invariants
import WasmToLlvm.Block.Standing

/-!
# Lowering of validated code

What the translation of a body says about its constructs, one construct at a time:
where a label can be left to, what stands on the symbolic stack there, and how the
rest of the body goes on.
-/

set_option autoImplicit false

namespace WasmToLlvm.Block

open Llvm Wasm Library BlockContext

variable {I : InstructionSet}

/-- A run on validated code; `low` is what stands below the operands of the body. -/
structure Lowers (signature : I.Instr → Option FuncSignature) (low : List Value)
    (context : BlockContext I.Op) (exprs : List (Expr I.Instr)) (inner : BlockContext I.Op) : Prop where
  emits : Emits I context exprs inner
  good : ∃ pending, Good pending context
  suffix : low <:+ context.stack
  checked : ∃ (validation : ValidationContext I.Instr) (operands after : Operands),
    Matches context validation ∧ validation.signature = signature ∧
      checkExprs validation exprs operands = some after ∧ Standing low.length context operands

/-- The way out of a body whose label has its phis in a block of their own: `resume` is
the translation behind the construct. -/
structure Exit {Op : Type} (label : BreakoutTarget) (below base : List Value)
    (inner resume : BlockContext Op) : Prop where
  extends_ : inner.Extends resume
  flows : (inner.flowInto label.target label.phis).Extends resume
  there : resume.At label.target
  body : resume.function.body label.target = label.phis.map PHINode.id
  stack : resume.stack = (label.phis.map PHINode.value).reverse ++ (below ++ base)
  height : inner.insertPoint ≠ none → inner.stack.length = label.phis.length + (below ++ base).length
  older : ∃ start, (∀ phi ∈ label.phis, start ≤ phi.id) ∧ (∀ value ∈ below ++ base, value.Known start) ∧
    ∀ alloca ∈ resume.locals, alloca.id < start

section Exits

variable {inner resume : BlockContext I.Op} {label : BreakoutTarget} {below base : List Value}

theorem Closable.height {arity : Nat} (closable : Closable inner label.pos arity)
    (sized : label.phis.length = arity) (pos : label.pos = (below ++ base).length) :
    inner.insertPoint ≠ none → inner.stack.length = label.phis.length + (below ++ base).length := by
  intro reached
  have exact := closable.exact reached
  omega

theorem leave_exit {arity : Nat} (lty : LabelType) (notFirst : lty ≠ .if_) (logged : inner.Logged)
    (member : label ∈ inner.blockStack) (suffix : below ++ base <:+ inner.stack)
    (pos : label.pos = (below ++ base).length) (sized : label.phis.length = arity)
    (closable : Closable inner label.pos arity)
    (aside : Aside label.target (label.phis.map PHINode.id) inner)
    (older : ∃ start, (∀ phi ∈ label.phis, start ≤ phi.id) ∧
      (∀ value ∈ below ++ base, value.Known start) ∧ ∀ alloca ∈ inner.locals, alloca.id < start) :
    Exit label below base inner ((inner.leave lty label).moveTo label.target) where
  extends_ := (leave_extends lty (.refl inner) logged member).congr rfl rfl
  flows := (Extends.refl (inner.flowInto label.target label.phis)).congr rfl rfl
  there := moveTo_at (by rw [leave_blocks_length]; exact aside.bound)
  body := body_flowInto aside _ _
  stack := by
    rw [moveTo_stack, leave_stack lty suffix pos, if_neg fun both => notFirst both.1]
  height := closable.height sized pos
  older := by
    rw [moveTo_locals, leave_locals]
    exact older

/-- The first arm of a conditional ends where the second one does. -/
theorem Exit.earlier {first : BlockContext I.Op} (exit : Exit label below base inner resume)
    (extends_ : first.Extends inner) (flows : (first.flowInto label.target label.phis).Extends inner)
    (height : first.insertPoint ≠ none → first.stack.length = label.phis.length + (below ++ base).length) :
    Exit label below base first resume :=
  ⟨extends_.trans exit.extends_, flows.trans exit.extends_, exit.there, exit.body, exit.stack, height,
    exit.older⟩

end Exits

section Lowers

variable {signature : I.Instr → Option FuncSignature} {low : List Value}
  {context inner : BlockContext I.Op} {exprs body other : List (Expr I.Instr)} {block : Nat}
  {decl : BlockDeclaration}

theorem Lowers.logged (lowers : Lowers signature low context exprs inner) : context.Logged := by
  obtain ⟨pending, good⟩ := lowers.good
  exact good.logged

theorem Lowers.sound (lowers : Lowers signature low context exprs inner) : Sound context := by
  obtain ⟨pending, good⟩ := lowers.good
  exact good.sound

theorem Lowers.extends (lowers : Lowers signature low context exprs inner) : context.Extends inner :=
  lowers.emits.extends lowers.logged (.refl _)

theorem Lowers.nil (lowers : Lowers signature low context [] inner) : inner = context := by
  generalize none : ([] : List (Expr I.Instr)) = exprs at lowers
  cases lowers.emits with
  | nil => rfl
  | skipped _ => rfl
  | step | block | loop | if_ => cases none


theorem Lowers.step {expr : Expr I.Instr}
    (lowers : Lowers signature low context (expr :: exprs) inner) (here : context.At block)
    (bodyless : isBodyless expr) (tracks : I.Tracks signature) (scalar : I.Scalar) :
    ∃ next, Step I context block expr next ∧ Lowers signature low next exprs inner := by
  obtain ⟨emits, ⟨pending, good⟩, suffix, validation, operands, after, matched, rfl, checked, standing⟩ :=
    lowers
  cases emits with
  | skipped nowhere => exact absurd nowhere here.reachable
  | block | loop | if_ => cases bodyless
  | step here' head tail =>
      obtain rfl := here.unique here'
      obtain ⟨middle, first, rest⟩ := checkExprs_cons checked
      obtain ⟨live, height⟩ := standing.live here.reachable
      exact ⟨_, head, tail, ⟨pending, head.good here scalar good⟩,
        head.keeps (fun instr _ => tracks instr) first live height low rfl suffix, validation, middle, after,
        matched.same head.blockStack head.locals, rfl, rest, head.standing here (fun instr _ => tracks instr) first standing⟩

theorem Lowers.ofStraight {expr : Expr I.Instr} {visit : Visit I.Op Unit}
    (lowers : Lowers signature low context (expr :: exprs) inner) (here : context.At block)
    (code : straightVisit I expr = some visit) (tracks : I.Tracks signature) (scalar : I.Scalar) :
    ∃ after, visit (visitStart context) = .ok ((), after) ∧
      Lowers signature low (context.afterVisit block after) exprs inner := by
  have bodyless : isBodyless expr := by
    cases expr <;> first | rfl | cases code
  obtain ⟨next, step, rest⟩ := lowers.step here bodyless tracks scalar
  cases step with
  | straight code' ran =>
      obtain rfl := Option.some.inj (code'.symm.trans code)
      exact ⟨_, ran, rest⟩
  | _ => cases code

theorem Lowers.ofUnreachable (lowers : Lowers signature low context (.unreachable :: exprs) inner)
    (here : context.At block) (tracks : I.Tracks signature) (scalar : I.Scalar) :
    Lowers signature low (context.emit block .unreachable).clear exprs inner := by
  obtain ⟨next, step, rest⟩ := lowers.step here rfl tracks scalar
  cases step with
  | straight code _ => cases code
  | unreachable => exact rest

theorem Lowers.ofBr {depth : Nat} (lowers : Lowers signature low context (.br depth :: exprs) inner)
    (here : context.At block) (tracks : I.Tracks signature) (scalar : I.Scalar) :
    ∃ label, Branches context depth label ∧
      Lowers signature low ((context.branchTo block label).emit block (.br label.target)).clear exprs
        inner := by
  obtain ⟨next, step, rest⟩ := lowers.step here rfl tracks scalar
  cases step with
  | straight code _ => cases code
  | br branches => exact ⟨_, branches, rest⟩

theorem Lowers.ofReturn (lowers : Lowers signature low context (.return_ :: exprs) inner)
    (here : context.At block) (tracks : I.Tracks signature) (scalar : I.Scalar) :
    ∃ label depth, depth + 1 = context.blockStack.length ∧ Branches context depth label ∧
      Lowers signature low ((context.branchTo block label).emit block (.br label.target)).clear exprs
        inner := by
  obtain ⟨next, step, rest⟩ := lowers.step here rfl tracks scalar
  cases step with
  | straight code _ => cases code
  | return_ outermost branches => exact ⟨_, _, outermost, branches, rest⟩

theorem Lowers.ofBrIf {depth : Nat} (lowers : Lowers signature low context (.brIf depth :: exprs) inner)
    (here : context.At block) (tracks : I.Tracks signature) (scalar : I.Scalar) :
    ∃ value rest label, context.stack = value :: rest ∧
      Branches (context.withStack rest) depth label ∧
      Lowers signature low (context.branchOrNext block value rest label) exprs inner := by
  obtain ⟨next, step, tail⟩ := lowers.step here rfl tracks scalar
  cases step with
  | straight code _ => cases code
  | brIf top branches => exact ⟨_, _, _, top, branches, tail⟩

theorem Lowers.ofBrTable {targets : List Nat} {default : Nat}
    (lowers : Lowers signature low context (.brTable targets default :: exprs) inner)
    (here : context.At block) (tracks : I.Tracks signature) (scalar : I.Scalar) :
    ∃ value rest label labels, context.stack = value :: rest ∧
      Branches (context.withStack rest) default label ∧
      List.Forall₂ (Reaches (context.withStack rest)) targets labels ∧
      Lowers signature low ((context.startTable block value rest label).addTargets
        context.function.insts.length block labels 0) exprs inner := by
  obtain ⟨next, step, tail⟩ := lowers.step here rfl tracks scalar
  cases step with
  | straight code _ => cases code
  | brTable top branches all => exact ⟨_, _, _, _, top, branches, all, tail⟩

/-- The values that a construct takes, those below them, and the rest. -/
theorem split_stack {stack : List Value} {operands below : Operands} {params : List ValType} (suffix : low <:+ stack)
    (live : operands.Live) (height : stack.length = low.length + operands.types.length)
    (popped : operands.popList params = some below) :
    ∃ taken under, stack = taken ++ (under ++ low) ∧ taken.length = params.length ∧
      under.length = below.types.length ∧ below.Live := by
  have pops := live.popList popped
  have length := pops.length
  obtain ⟨front, rfl⟩ := suffix
  rw [List.length_append] at height
  refine ⟨front.take params.length, front.drop params.length, ?_, ?_, ?_, pops.live⟩
  · rw [← List.append_assoc, List.take_append_drop]
  · rw [List.length_take]
    omega
  · rw [List.length_drop]
    omega

theorem Sound.older {taken rest : List Value} {stack : List Value} (sound : Sound context)
    (split : stack = taken ++ rest) (inside : ∀ value ∈ stack, value ∈ context.stack) :
    (∀ value ∈ rest, value.Known context.function.insts.length) ∧
      ∀ alloca ∈ context.locals, alloca.id < context.function.insts.length :=
  ⟨fun value member => sound.stack value (inside value (split ▸ List.mem_append_right _ member)),
    fun alloca member => (sound.locals alloca member).1⟩

/-! ## Bodies in a frame of their own -/

/-- The end of a body of which `label` is the label; `base` stands below its operands. -/
structure Ended {Op : Type} (pending : List Nat) (label : BreakoutTarget) (labels : List BreakoutTarget)
    (locals : List AllocaInst) (base : List Value) (last : BlockContext Op) : Prop where
  labels : last.blockStack = label :: labels
  locals : last.locals = locals
  placed : last.Placed
  good : Good pending last
  suffix : base <:+ last.stack

section Bodies

variable {validation : ValidationContext I.Instr} {label : BreakoutTarget} {labels : List BreakoutTarget}
  {locals : List AllocaInst} {frame : List ValType} {final : Operands} {below base : List Value}
  {pending : List Nat} {arity : Nat} {start last : BlockContext I.Op}

theorem Entered.lowers (entered : Entered validation frame decl body final base.length start)
    (good : Good pending start) (lower : base <:+ start.stack) (run : Emits I start body last) :
    Lowers validation.signature base start body last :=
  ⟨run, ⟨_, good⟩, lower, _, _, _, entered.matched, rfl, entered.framed.checked, entered.standing⟩

theorem Entered.ended (entered : Entered validation frame decl body final base.length start)
    (good : Good pending start) (lower : base <:+ start.stack) (run : Emits I start body last)
    (tracks : I.Tracks validation.signature) (scalar : I.Scalar) (opened : start.blockStack = label :: labels) :
    Ended pending label labels start.locals base last where
  labels := run.blockStack.trans opened
  locals := run.locals
  placed := run.placed (.inr entered.there)
  good := run.good scalar good
  suffix := run.keeps entered.matched tracks entered.framed.checked entered.standing base rfl lower

theorem Ended.member (ended : Ended pending label labels locals base last) : label ∈ last.blockStack :=
  ended.labels ▸ List.mem_cons_self

/-- The way out, where the phis and what stands below them are older than `count`. -/
theorem Ended.exit {count : Nat} (lty : LabelType) (ended : Ended pending label labels locals (below ++ base) last)
    (notFirst : lty ≠ .if_) (pos : label.pos = (below ++ base).length) (sized : label.phis.length = arity)
    (closable : Closable last label.pos arity) (aside : Aside label.target (label.phis.map PHINode.id) last)
    (fresh : ∀ phi ∈ label.phis, count ≤ phi.id) (known : ∀ value ∈ below ++ base, value.Known count)
    (knownLocals : ∀ alloca ∈ locals, alloca.id < count) :
    Exit label below base last ((last.leave lty label).moveTo label.target) :=
  leave_exit lty notFirst ended.good.logged ended.member ended.suffix pos sized closable aside
    ⟨count, fresh, known, ended.locals ▸ knownLocals⟩

/-- The code behind the construct. -/
theorem Ended.resume {operands after : Operands} {lty : LabelType} {exit : Nat}
    (ended : Ended (exit :: pending) label context.blockStack context.locals (below ++ low) last)
    (notFirst : lty ≠ .if_) (sized : label.phis.length = decl.results.length)
    (pos : label.pos = (below ++ low).length) (depth : below.length = operands.types.length)
    (closable : Closable last label.pos decl.results.length) (matched : Matches context validation)
    (live : operands.Live) (tail : Emits I ((last.leave lty label).moveTo exit) exprs inner)
    (checked : checkExprs validation exprs (operands.pushList decl.results) = some after) :
    Lowers validation.signature low ((last.leave lty label).moveTo exit) exprs inner := by
  have height : (below ++ low).length = low.length + operands.types.length := by
    rw [List.length_append, depth, Nat.add_comm]
  have popped : (last.leave lty label).blockStack = context.blockStack := by
    rw [leave, withLabels_blockStack, if_neg notFirst, ended.labels, List.tail_cons]
  refine ⟨tail, ⟨_, leave_good lty ended.placed ended.good ended.member sized closable⟩, ?_, validation, _, after,
    matched.same popped ?_, rfl, checked, ?_⟩
  · rw [moveTo_stack, leave_stack lty ended.suffix pos]
    exact suffix_append_right _ (List.suffix_append _ _)
  · rw [moveTo_locals, leave_locals, ended.locals]
  · exact leave_standing notFirst sized (height ▸ pos) (height ▸ ended.suffix.length_le) live

/-- The second arm starts with the parameters, above what a first arm leaves whose end cannot be reached. -/
theorem Ended.startElse_stack (ended : Ended pending label labels locals base last)
    (pos : label.pos = base.length) (elseBlock : Nat) (params : List Value) :
    ∃ junk, (last.startElse label elseBlock params).stack = params ++ (junk ++ base) ∧
      junk.length = if last.insertPoint = none then label.phis.length else 0 := by
  have left := leave_stack .if_ ended.suffix pos
  refine ⟨_, congrArg (params ++ ·) left, ?_⟩
  by_cases nowhere : last.insertPoint = none <;> simp [nowhere]

/-- The first arm of a conditional goes where the second one does. -/
theorem Ended.exitThen {second resume : BlockContext I.Op} {elseBlock : Nat} {params : List Value} {more : List Nat}
    (ended : Ended pending label labels locals (below ++ base) last) (pos : label.pos = (below ++ base).length)
    (sized : label.phis.length = arity) (closable : Closable last label.pos arity)
    (good : Good more (last.startElse label elseBlock params))
    (run : Emits I (last.startElse label elseBlock params) other second)
    (exit : Exit label below base second resume) : Exit label below base last resume := by
  have between : last.Extends (last.startElse label elseBlock params) :=
    (leave_extends .if_ (.refl last) ended.good.logged ended.member).congr rfl rfl
  have flows : (last.flowInto label.target label.phis).Extends (last.startElse label elseBlock params) :=
    (Extends.refl _).congr rfl rfl
  have rest := run.extends good.logged (.refl _)
  exact exit.earlier (between.trans rest) (flows.trans rest) (closable.height sized pos)

end Bodies

theorem Lowers.ofBlock (lowers : Lowers signature low context (.block decl body :: exprs) inner)
    (here : context.At block) (tracks : I.Tracks signature) (scalar : I.Scalar) :
    ∃ types taken below bodyEnd resume, Convert decl.results types ∧
      context.stack = taken ++ (below ++ low) ∧ taken.length = decl.params.length ∧
      Lowers signature (below ++ low) (context.startBlock block decl types) body bodyEnd ∧
      Exit (context.blockLabel decl types) below low bodyEnd resume ∧
      resume.blockStack = context.blockStack ∧ resume.locals = context.locals ∧
      Lowers signature low resume exprs inner := by
  obtain ⟨emits, ⟨pending, good⟩, suffix, validation, operands, after, matched, rfl, checked, standing⟩ :=
    lowers
  cases emits with
  | skipped nowhere => exact absurd nowhere here.reachable
  | step _ head _ => cases head.bodyless
  | @block _ bodyEnd _ _ _ _ _ types here' all run closable tail =>
      obtain rfl := here.unique here'
      obtain ⟨middle, first, rest⟩ := checkExprs_cons checked
      obtain ⟨operandsBelow, frame, popped, framed, rfl⟩ := checkExpr_block first
      obtain ⟨live, height⟩ := standing.live here.reachable
      obtain ⟨taken, below, split, count, depth, liveBelow⟩ := split_stack suffix live height popped
      have entry : context.stack.length = low.length + operandsBelow.types.length + decl.params.length := by
        rw [split, List.length_append, List.length_append]
        omega
      have sizedLow : (below ++ low).length = low.length + operandsBelow.types.length := by
        rw [List.length_append, depth, Nat.add_comm]
      have pos : (context.blockLabel decl types).pos = (below ++ low).length := by
        rw [sizedLow]
        exact labelPos_eq .block (by decide) entry
      have entered := startBlock_entered framed here matched all (sizedLow ▸ entry)
      have goodStart := startBlock_good here all good
      have lower : below ++ low <:+ context.stack := split ▸ List.suffix_append _ _
      have sized : (context.blockLabel decl types).phis.length = decl.results.length := exitLabel_sized _ _ _ all
      have bound := here.bound
      have asideStart : Aside context.function.blocks.length
          ((context.blockLabel decl types).phis.map PHINode.id) (context.startBlock block decl types) := by
        refine ⟨by rw [startBlock_blocks_length]; omega, ?_, ?_⟩
        · refine (Function.body_appendAll_self (by simp)).trans ?_
          simp [Function.body_eq_nil, blockLabel, exitLabel, resultPhis_ids]
        · rw [(startBlock_at _ _ here).getInsertBlock]
          simp only [ne_eq, Option.some.injEq]
          omega
      have ended : Ended (context.function.blocks.length :: pending) (context.blockLabel decl types)
          context.blockStack context.locals (below ++ low) bodyEnd :=
        entered.ended goodStart lower run tracks scalar rfl
      obtain ⟨known, knownLocals⟩ := good.sound.older split fun _ inside => inside
      have exit := ended.exit .block (by decide) pos sized closable (run.aside asideStart)
        (fun phi inside => (resultPhis_known (convert_scalar all) _ phi inside).1) known knownLocals
      exact ⟨types, taken, below, bodyEnd, _, all, split, count, entered.lowers goodStart lower run, exit,
        by simp [leave, ended.labels], by simp [ended.locals],
        ended.resume (by decide) sized pos depth closable matched liveBelow tail rest⟩

theorem Lowers.ofLoop (lowers : Lowers signature low context (.loop decl body :: exprs) inner)
    (here : context.At block) (tracks : I.Tracks signature) (scalar : I.Scalar) :
    ∃ types taken below bodyEnd, Convert decl.params.reverse types ∧
      context.stack = taken ++ (below ++ low) ∧ taken.length = decl.params.length ∧
      Lowers signature (below ++ low) (context.startLoop block decl types) body bodyEnd ∧
      Lowers signature low (bodyEnd.withLabels context.blockStack) exprs inner := by
  obtain ⟨emits, ⟨pending, good⟩, suffix, validation, operands, after, matched, rfl, checked, standing⟩ :=
    lowers
  cases emits with
  | skipped nowhere => exact absurd nowhere here.reachable
  | step _ head _ => cases head.bodyless
  | @loop _ bodyEnd _ _ _ _ _ types here' all enough run closable tail =>
      obtain rfl := here.unique here'
      obtain ⟨middle, first, rest⟩ := checkExprs_cons checked
      obtain ⟨operandsBelow, frame, popped, framed, rfl⟩ := checkExpr_loop first
      obtain ⟨live, height⟩ := standing.live here.reachable
      obtain ⟨taken, below, split, count, depth, liveBelow⟩ := split_stack suffix live height popped
      have entry : context.stack.length = low.length + operandsBelow.types.length + decl.params.length := by
        rw [split, List.length_append, List.length_append]
        omega
      have sizedLow : (below ++ low).length = low.length + operandsBelow.types.length := by
        rw [List.length_append, depth, Nat.add_comm]
      have entered := startLoop_entered block framed matched all (sizedLow ▸ entry)
      have goodStart := startLoop_good here all enough good
      have typesCount : types.length = taken.length := by simpa [count] using all.length_eq.symm
      have lower : below ++ low <:+ (context.startLoop block decl types).stack := by
        refine suffix_append_right _ ?_
        show below ++ low <:+ context.stack.drop types.length
        have dropped : context.stack.drop types.length = below ++ low := by
          rw [split, typesCount, List.drop_left]
        exact dropped ▸ List.suffix_rfl
      have kept := run.keeps entered.matched tracks framed.checked entered.standing _ rfl lower
      have heights := run.standing entered.matched tracks framed.checked entered.standing
      have labels : bodyEnd.blockStack.tail = context.blockStack := by
        rw [run.blockStack]
        rfl
      rw [labels] at tail
      refine ⟨types, taken, below, bodyEnd, all, split, count,
        ⟨run, ⟨_, goodStart⟩, lower, _, _, _, entered.matched, rfl, framed.checked, entered.standing⟩,
        tail, ⟨_, (run.good scalar goodStart).withLabels fun label member =>
          List.mem_of_mem_tail (labels ▸ member)⟩,
        (List.suffix_append _ _).trans kept, validation, _, after, matched.same rfl ?_, rfl, rest,
        leaveLoop_standing framed (sizedLow ▸ heights) liveBelow⟩
      rw [withLabels_locals, run.locals]
      rfl

/-- The label of a conditional; `base` is the height below its operands. -/
theorem ifLabel_spec (context : BlockContext I.Op) (block : Nat) (value : Value) {rest : List Value}
    {types : List Ty} {base : Nat}
    (all : Convert decl.results types) (height : rest.length = base + decl.params.length) :
    (context.ifLabel block value rest decl types).phis.length = decl.results.length ∧
      (context.ifLabel block value rest decl types).pos = base ∧
      ∀ phi ∈ (context.ifLabel block value rest decl types).phis, context.function.insts.length ≤ phi.id := by
  refine ⟨exitLabel_sized _ _ _ all, labelPos_eq .if_ (by decide) height, fun phi inside => ?_⟩
  have new := (resultPhis_known (convert_scalar all) _ phi inside).1
  exact Nat.le_trans (branchToArms_grows (.refl _) _ _ _).insts.length_le new

theorem startThen_aside_exit (value : Value) (rest : List Value) (decl : BlockDeclaration) (types : List Ty)
    (here : context.At block) :
    Aside (context.function.blocks.length + 2)
      ((context.ifLabel block value rest decl types).phis.map PHINode.id)
      (context.startThen block value rest decl types) := by
  have bound := here.bound
  refine ⟨by rw [startThen_blocks_length]; omega, ?_, ?_⟩
  · refine (Function.body_appendAll_self (by simp)).trans ?_
    rw [moveTo_function, body_branchToArms value rest (by omega), Function.body_eq_nil (by omega)]
    simp [ifLabel, exitLabel, resultPhis_ids]
  · rw [(startThen_at _ _ _ _).getInsertBlock]
    simp only [ne_eq, Option.some.injEq]
    omega

theorem startThen_aside_else {value : Value} {rest : List Value} {types : List Ty}
    (here : context.At block) :
    Aside (context.function.blocks.length + 1) [] (context.startThen block value rest decl types) := by
  have bound := here.bound
  refine ⟨by rw [startThen_blocks_length]; omega, ?_, ?_⟩
  · refine (Function.body_appendAll_of_ne (by omega)).trans ?_
    rw [moveTo_function, body_branchToArms value rest (by omega), Function.body_eq_nil (by omega)]
  · rw [(startThen_at _ _ _ _).getInsertBlock]
    simp only [ne_eq, Option.some.injEq]
    omega

/-- The second arm, behind a first arm that has ended. -/
theorem Ended.elseArm {validation : ValidationContext I.Instr} {final : Operands} {label : BreakoutTarget}
    {base taken rest : List Value} {value : Value} {types : List Ty} {pending : List Nat}
    {first second : BlockContext I.Op}
    (ended : Ended ((context.function.blocks.length + 1) :: pending) label context.blockStack context.locals base first)
    (isLabel : context.ifLabel block value rest decl types = label) (takes : rest.take decl.params.length = taken)
    (sized : label.phis.length = decl.results.length) (pos : label.pos = base.length)
    (height : rest.length = base.length + decl.params.length) (all : Convert decl.results types)
    (matched : Matches context validation) (framed : Framed validation decl.results decl other final)
    (closable : Closable first label.pos decl.results.length)
    (known : ∀ param ∈ taken, param.Known first.function.insts.length)
    (run : Emits I (context.startThen block value rest decl types) body first)
    (runElse : Emits I (first.startElse label (context.function.blocks.length + 1) taken) other second)
    (tracks : I.Tracks validation.signature) (scalar : I.Scalar) :
    ∃ junk, (first.startElse label (context.function.blocks.length + 1) taken).stack = taken ++ (junk ++ base) ∧
      Good pending (first.startElse label (context.function.blocks.length + 1) taken) ∧
      Lowers validation.signature (junk ++ base) (first.startElse label (context.function.blocks.length + 1) taken)
        other second ∧
      Ended pending label context.blockStack context.locals base second := by
  have entered := startElse_entered framed matched all run height ended.suffix.length_le
  have good := startElse_good taken ended.placed ended.good ended.member sized closable known
  obtain ⟨junk, stack, size⟩ := ended.startElse_stack pos (context.function.blocks.length + 1) taken
  rw [isLabel, takes, Nat.add_comm, ← sized, ← size, ← List.length_append] at entered
  have lower : junk ++ base <:+ (first.startElse label (context.function.blocks.length + 1) taken).stack :=
    stack ▸ List.suffix_append _ _
  have labels : (first.startElse label (context.function.blocks.length + 1) taken).blockStack =
      label :: context.blockStack := isLabel ▸ startElse_blockStack run
  have locals : (first.startElse label (context.function.blocks.length + 1) taken).locals = context.locals := by
    simp [startElse, ended.locals]
  have last := entered.ended good lower runElse tracks scalar labels
  exact ⟨junk, stack, good, entered.lowers good lower runElse, last.labels, last.locals.trans locals, last.placed,
    last.good, (List.suffix_append _ _).trans last.suffix⟩

/-- Both arms of a conditional; `junk` is what a first arm leaves if its end cannot be reached. -/
inductive Arms (signature : I.Instr → Option FuncSignature) (low : List Value)
    (context : BlockContext I.Op) (block : Nat) (decl : BlockDeclaration)
    (body other exprs : List (Expr I.Instr)) (inner : BlockContext I.Op) : Prop where
  | intro {value : Value} {types : List Ty} {taken below junk : List Value} {label : BreakoutTarget}
      {started first startedElse second resume : BlockContext I.Op} (all : Convert decl.results types)
      (split : context.stack = value :: (taken ++ (below ++ low)))
      (count : taken.length = decl.params.length)
      (isStarted : started = context.startThen block value (taken ++ (below ++ low)) decl types)
      (isLabel : label = context.ifLabel block value (taken ++ (below ++ low)) decl types)
      (thenArm : Lowers signature (below ++ low) started body first)
      (elseArm : Lowers signature (junk ++ (below ++ low)) startedElse other second)
      (elseStack : startedElse.stack = taken ++ (junk ++ (below ++ low)))
      (elseAt : startedElse.At (context.function.blocks.length + 1))
      (elseBody : startedElse.function.body (context.function.blocks.length + 1) = [])
      (elseLabels : startedElse.blockStack = label :: context.blockStack)
      (elseLocals : startedElse.locals = context.locals)
      (between : first.Extends startedElse) (thenExit : Exit label below low first resume)
      (elseExit : Exit label below low second resume) (labels : resume.blockStack = context.blockStack)
      (locals : resume.locals = context.locals) (tail : Lowers signature low resume exprs inner) :
      Arms signature low context block decl body other exprs inner

theorem Lowers.ofIf (lowers : Lowers signature low context (.if_ decl body other :: exprs) inner)
    (here : context.At block) (tracks : I.Tracks signature) (scalar : I.Scalar) :
    Arms signature low context block decl body other exprs inner := by
  obtain ⟨emits, ⟨pending, good⟩, suffix, validation, operands, after, matched, rfl, checked, standing⟩ :=
    lowers
  cases emits with
  | skipped nowhere => exact absurd nowhere here.reachable
  | step _ head _ => cases head.bodyless
  | @if_ _ first second _ _ value rest _ _ _ _ types here' top enough all runTrue closableTrue runFalse
      closableFalse tail =>
      obtain rfl := here.unique here'
      obtain ⟨middle, head, more⟩ := checkExprs_cons checked
      obtain ⟨condition, operandsBelow, finalTrue, finalFalse, popTop, popped, framedTrue, framedFalse,
        rfl⟩ := checkExpr_if head
      obtain ⟨live, height⟩ := standing.live here.reachable
      have pops := live.popExpect popTop
      have lengthTop := pops.length
      rw [top, List.length_cons] at height
      have suffixRest : low <:+ rest := by
        have dropped := suffix_drop 1 suffix (by rw [top, List.length_cons]; omega)
        rwa [top] at dropped
      obtain ⟨taken, below, rfl, count, depth, liveBelow⟩ := split_stack suffixRest pops.live (by omega) popped
      have entry : (taken ++ (below ++ low)).length =
          low.length + operandsBelow.types.length + decl.params.length := by
        rw [List.length_append, List.length_append]
        omega
      have takes : (taken ++ (below ++ low)).take decl.params.length = taken := by
        rw [← count, List.take_left]
      have sizedLow : (below ++ low).length = low.length + operandsBelow.types.length := by
        rw [List.length_append, depth, Nat.add_comm]
      obtain ⟨known, knownLocals⟩ := good.sound.older rfl fun value inside => by
        rw [top]
        exact List.mem_cons_of_mem _ inside
      have asideStart := startThen_aside_exit value (taken ++ (below ++ low)) decl types here
      obtain ⟨sized, pos, fresh⟩ := ifLabel_spec context block value all (sizedLow ▸ entry)
      generalize isLabel : context.ifLabel block value (taken ++ (below ++ low)) decl types = label at *
      have target : label.target = context.function.blocks.length + 2 := by rw [← isLabel]; rfl
      -- the first arm
      have enteredTrue := startThen_entered block value framedTrue matched all (sizedLow ▸ entry)
      have goodTrue := startThen_good here top all good
      have lower : below ++ low <:+ taken ++ (below ++ low) := List.suffix_append _ _
      have ended : Ended ((context.function.blocks.length + 1) :: (context.function.blocks.length + 2) :: pending) label
          context.blockStack context.locals (below ++ low) first :=
        enteredTrue.ended goodTrue lower runTrue tracks scalar (isLabel ▸ rfl)
      have asideElse : Aside (context.function.blocks.length + 1) [] first :=
        runTrue.aside (startThen_aside_else here)
      -- the second arm
      rw [takes] at runFalse
      have known' : ∀ param ∈ taken, param.Known first.function.insts.length := by
        intro param member
        have grown := (runTrue.grows (startThen_grows (.refl _) _ _ _ _ _)).insts.length_le
        refine (good.sound.stack param ?_).mono grown
        rw [top]
        exact List.mem_cons_of_mem _ (List.mem_append_left _ member)
      obtain ⟨junk, elseStack, goodFalse, elseArm, endedFalse⟩ := ended.elseArm isLabel takes sized pos
        (sizedLow ▸ entry) all matched framedFalse closableTrue known' runTrue runFalse tracks scalar
      -- both arms end at one place
      have asideSecond : Aside label.target (label.phis.map PHINode.id) second :=
        runFalse.aside (startElse_aside taken (target ▸ runTrue.aside asideStart) (by omega))
      have exit := endedFalse.exit .else_ (by decide) pos sized closableFalse asideSecond fresh known
        knownLocals
      have exitFirst := ended.exitThen pos sized closableTrue goodFalse runFalse exit
      rw [← target] at tail endedFalse
      exact .intro all top count rfl isLabel.symm (enteredTrue.lowers goodTrue lower runTrue) elseArm elseStack
        (startElse_at _ taken asideElse.bound) (body_flowInto asideElse _ _) (isLabel ▸ startElse_blockStack runTrue)
        (by simp [startElse, ended.locals])
        ((leave_extends .if_ (.refl first) ended.good.logged ended.member).congr rfl rfl) exitFirst exit
        (by simp [leave, endedFalse.labels]) (by simp [endedFalse.locals])
        (endedFalse.resume (by decide) sized pos depth closableFalse matched liveBelow tail more)

end Lowers

end WasmToLlvm.Block
