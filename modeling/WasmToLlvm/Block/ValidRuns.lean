import WasmToLlvm.Block.Standing

/-!
# Runs of validated code

`ValidRun` is a run together with what validation says in front of each of its
expressions: the operands, what stands below them and what the bodies leave alone.
Invariants of validated code are inductions on it.
-/

set_option autoImplicit false

namespace WasmToLlvm.Block

open Llvm Wasm Library BlockContext

variable {I : InstructionSet}

/-- What is known in front of an expression that can be reached. -/
structure Ahead (validation : ValidationContext I.Instr) (base : Nat) (operands : Operands)
    (context : BlockContext I.Op) (block : Nat) : Prop where
  here : context.At block
  matched : Matches context validation
  live : operands.Live
  height : context.stack.length = base + operands.types.length

/-- The operands of a construct: its parameters above the ones that it leaves alone. -/
structure Opens (decl : BlockDeclaration) (operands below : Operands) (stack : List Value) (base : Nat) : Prop where
  popped : operands.popList decl.params = some below
  live : below.Live
  height : stack.length = base + below.types.length + decl.params.length

/-- A run of validated code, in which some property holds of the instructions visited. -/
inductive ValidRun (I : InstructionSet) (holds : I.Instr → Bool) :
    ValidationContext I.Instr → Nat → Operands → BlockContext I.Op → List (Expr I.Instr) → Operands →
      BlockContext I.Op → Prop where
  | nil {validation : ValidationContext I.Instr} {base : Nat} {operands : Operands} {context : BlockContext I.Op}
      (standing : Standing base context operands) :
      ValidRun I holds validation base operands context [] operands context
  | skipped {validation : ValidationContext I.Instr} {base : Nat} {operands after : Operands}
      {context : BlockContext I.Op} {exprs : List (Expr I.Instr)} (nowhere : context.insertPoint = none)
      (bottom : base ≤ context.stack.length) :
      ValidRun I holds validation base operands context exprs after context
  | step {validation : ValidationContext I.Instr} {base : Nat} {operands middle after : Operands}
      {context next final : BlockContext I.Op} {block : Nat} {expr : Expr I.Instr} {exprs : List (Expr I.Instr)}
      (ahead : Ahead validation base operands context block)
      (checked : checkExpr validation expr operands = some middle)
      (visited : Expr.visitedAll holds expr) (head : Step I context block expr next)
      (tail : ValidRun I holds validation base middle next exprs after final) :
      ValidRun I holds validation base operands context (expr :: exprs) after final
  | block {validation : ValidationContext I.Instr} {base : Nat} {operands below frame after : Operands}
      {context inner final : BlockContext I.Op} {block : Nat} {decl : BlockDeclaration}
      {body exprs : List (Expr I.Instr)} {types : List Ty} (ahead : Ahead validation base operands context block)
      (checked : checkExpr validation (.block decl body) operands = some (below.pushList decl.results))
      (opens : Opens decl operands below context.stack base)
      (framed : Framed validation decl.results decl body frame) (all : Convert decl.results types)
      (run : ValidRun I holds (validation.withLabel decl.results) (base + below.types.length)
        (.live decl.params.reverse) (context.startBlock block decl types) body frame inner)
      (emits : Emits I (context.startBlock block decl types) body inner)
      (closable : Closable inner (context.blockLabel decl types).pos decl.results.length)
      (keeps : Keeps (base + below.types.length) context.stack inner.stack)
      (tail : ValidRun I holds validation base (below.pushList decl.results)
        ((inner.leave .block (context.blockLabel decl types)).moveTo context.function.blocks.length)
        exprs after final) :
      ValidRun I holds validation base operands context (.block decl body :: exprs) after final
  | loop {validation : ValidationContext I.Instr} {base : Nat} {operands below frame after : Operands}
      {context inner final : BlockContext I.Op} {block : Nat} {decl : BlockDeclaration}
      {body exprs : List (Expr I.Instr)} {types : List Ty} (ahead : Ahead validation base operands context block)
      (checked : checkExpr validation (.loop decl body) operands = some (below.pushList decl.results))
      (opens : Opens decl operands below context.stack base)
      (framed : Framed validation decl.params decl body frame) (all : Convert decl.params.reverse types)
      (run : ValidRun I holds (validation.withLabel decl.params) (base + below.types.length)
        (.live decl.params.reverse) (context.startLoop block decl types) body frame inner)
      (emits : Emits I (context.startLoop block decl types) body inner)
      (closable : inner.insertPoint ≠ none →
        (inner.stack.length : Int) = labelPos .loop context.stack decl + decl.results.length ∧
          decl.params.length ≤ inner.stack.length)
      (keeps : Keeps (base + below.types.length) context.stack inner.stack)
      (tail : ValidRun I holds validation base (below.pushList decl.results)
        (inner.withLabels inner.blockStack.tail) exprs after final) :
      ValidRun I holds validation base operands context (.loop decl body :: exprs) after final
  | if_ {validation : ValidationContext I.Instr} {base : Nat} {operands condition below frame frame' after : Operands}
      {context first second final : BlockContext I.Op} {block : Nat} {value : Value} {rest : List Value}
      {decl : BlockDeclaration} {trueExprs falseExprs exprs : List (Expr I.Instr)} {types : List Ty}
      (ahead : Ahead validation base operands context block)
      (checked : checkExpr validation (.if_ decl trueExprs falseExprs) operands =
        some (below.pushList decl.results)) (top : context.stack = value :: rest)
      (popTop : operands.popExpect .i32 = some condition) (opens : Opens decl condition below rest base)
      (framedTrue : Framed validation decl.results decl trueExprs frame)
      (framedFalse : Framed validation decl.results decl falseExprs frame') (all : Convert decl.results types)
      (runTrue : ValidRun I holds (validation.withLabel decl.results) (base + below.types.length)
        (.live decl.params.reverse) (context.startThen block value rest decl types) trueExprs frame first)
      (emitsTrue : Emits I (context.startThen block value rest decl types) trueExprs first)
      (closableTrue : Closable first (context.ifLabel block value rest decl types).pos decl.results.length)
      (keepsTrue : Keeps (base + below.types.length) rest first.stack)
      (runFalse : ValidRun I holds (validation.withLabel decl.results)
        (base + below.types.length + if first.insertPoint = none then decl.results.length else 0)
        (.live decl.params.reverse) (first.startElse (context.ifLabel block value rest decl types)
          (context.function.blocks.length + 1) (rest.take decl.params.length)) falseExprs frame' second)
      (emitsFalse : Emits I (first.startElse (context.ifLabel block value rest decl types)
        (context.function.blocks.length + 1) (rest.take decl.params.length)) falseExprs second)
      (closableFalse : Closable second (context.ifLabel block value rest decl types).pos decl.results.length)
      (keepsFalse : Keeps (base + below.types.length) rest second.stack)
      (tail : ValidRun I holds validation base (below.pushList decl.results)
        ((second.leave .else_ (context.ifLabel block value rest decl types)).moveTo
          (context.function.blocks.length + 2)) exprs after final) :
      ValidRun I holds validation base operands context (.if_ decl trueExprs falseExprs :: exprs) after final

section Runs

variable {holds : I.Instr → Bool} {validation : ValidationContext I.Instr} {base : Nat} {operands below after : Operands}
  {context final : BlockContext I.Op} {block : Nat} {decl : BlockDeclaration} {exprs : List (Expr I.Instr)}

theorem Standing.ahead (standing : Standing base context operands) (here : context.At block)
    (matched : Matches context validation) : Ahead validation base operands context block := by
  obtain ⟨live, height⟩ := standing.live here.reachable
  exact ⟨here, matched, live, height⟩

theorem Ahead.standing (ahead : Ahead validation base operands context block) : Standing base context operands where
  bottom := by
    rw [ahead.height]
    exact Nat.le_add_right _ _
  live := fun _ => ⟨ahead.live, ahead.height⟩

theorem opens_of_live {stack : List Value} (live : operands.Live)
    (height : stack.length = base + operands.types.length) (popped : operands.popList decl.params = some below) :
    Opens decl operands below stack base := by
  have pops := live.popList popped
  have length := pops.length
  exact ⟨popped, pops.live, by omega⟩

theorem Opens.pos {stack : List Value} (opens : Opens decl operands below stack base) (lty : LabelType)
    (notFunc : lty ≠ .func) : labelPos lty stack decl = (base + below.types.length : Nat) :=
  labelPos_eq lty notFunc opens.height

/-- Runs of validated code are the runs on which validation succeeds. -/
theorem Emits.validRun (emits : Emits I context exprs final) (matched : Matches context validation)
    (tracks : ∀ instr, holds instr → I.TracksAt validation.signature instr)
    (visited : ExprList.visitedAll holds exprs) (checked : checkExprs validation exprs operands = some after)
    (standing : Standing base context operands) : ValidRun I holds validation base operands context exprs after final := by
  induction emits generalizing validation operands after base with
  | nil =>
      obtain rfl : operands = after := by simpa [checkExprs] using checked
      exact .nil standing
  | skipped nowhere => exact .skipped nowhere standing.bottom
  | @step context next final block expr exprs here head tail ih =>
      obtain ⟨middle, first, rest⟩ := checkExprs_cons checked
      obtain ⟨visitedHead, visitedTail⟩ := visitedAll_cons visited
      have tracksHead : ∀ instr, expr = .instr instr → I.TracksAt validation.signature instr := by
        intro instr same
        rw [same] at visitedHead
        exact tracks instr visitedHead
      have left := head.standing here tracksHead first standing
      refine .step (standing.ahead here matched) first visitedHead head ?_
      by_cases diverges : expr.diverges
      · have nowhere := head.nowhere_iff.mpr diverges
        rw [tail.eq_of_nowhere nowhere]
        exact .skipped nowhere left.bottom
      · exact ih (matched.same head.blockStack head.locals) tracks (visitedTail diverges) rest left
  | @block context inner _ block decl _ _ types here all run closable tail ihRun ihTail =>
      obtain ⟨next, first, rest⟩ := checkExprs_cons checked
      obtain ⟨below, frame, popped, framed, rfl⟩ := checkExpr_block first
      have ahead := standing.ahead here matched
      have opens := opens_of_live ahead.live ahead.height popped
      have entered := startBlock_entered framed here matched all opens.height
      obtain ⟨visitedBody, visitedTail⟩ := visitedAll_cons visited
      obtain ⟨inside, keeps⟩ := run.heights entered.matched tracks visitedBody framed.checked entered.standing
      refine .block ahead first opens framed all
        (ihRun entered.matched tracks visitedBody framed.checked entered.standing) run closable keeps ?_
      exact ihTail (matched.same (by simp [leave, run.blockStack, startBlock, openLabel])
        (by simp [run.locals, startBlock, openLabel])) tracks (visitedTail Bool.false_ne_true) rest
        (leave_standing (by decide) (exitLabel_sized _ _ _ all) (opens.pos .block (by decide)) inside.bottom opens.live)
  | @loop context inner _ block decl body _ types here all enough run closable tail ihRun ihTail =>
      obtain ⟨next, first, rest⟩ := checkExprs_cons checked
      obtain ⟨below, frame, popped, framed, rfl⟩ := checkExpr_loop first
      have ahead := standing.ahead here matched
      have opens := opens_of_live ahead.live ahead.height popped
      have entered := startLoop_entered block framed matched all opens.height
      obtain ⟨visitedBody, visitedTail⟩ := visitedAll_cons visited
      obtain ⟨inside, keptInside⟩ := run.heights entered.matched tracks visitedBody framed.checked entered.standing
      have count : types.length = decl.params.length := by simpa using all.length_eq.symm
      have started : Keeps (base + below.types.length) context.stack (context.startLoop block decl types).stack := by
        have height := opens.height
        exact (Keeps.drop (by omega)).append _
      refine .loop ahead first opens framed all
        (ihRun entered.matched tracks visitedBody framed.checked entered.standing) run closable
        (started.trans keptInside) ?_
      by_cases diverges : ExprList.diverges body
      · have nowhere : (inner.withLabels inner.blockStack.tail).insertPoint = none :=
          run.nowhere_iff.mpr (.inr diverges)
        rw [tail.eq_of_nowhere nowhere]
        exact .skipped nowhere (Nat.le_trans (Nat.le_add_right _ _) inside.bottom)
      · exact ihTail (matched.same (by simp [run.blockStack, startLoop, openLoop, branchToLoop])
          (by simp [run.locals, startLoop, openLoop, openParams, branchToLoop])) tracks (visitedTail diverges) rest
          (leaveLoop_standing framed inside opens.live)
  | @if_ context first second _ block value rest decl _ _ _ types here top enough all runTrue
      closableTrue runFalse closableFalse tail ihTrue ihFalse ihTail =>
      obtain ⟨next, head, more⟩ := checkExprs_cons checked
      obtain ⟨condition, below, _, _, popTop, popped, framedTrue, framedFalse, rfl⟩ := checkExpr_if head
      have ahead := standing.ahead here matched
      have pops := ahead.live.popExpect popTop
      have height : rest.length = base + condition.types.length := by
        have := ahead.height
        have := pops.length
        rw [top, List.length_cons] at *
        omega
      have opens := opens_of_live pops.live height popped
      have enteredTrue := startThen_entered block value framedTrue matched all opens.height
      obtain ⟨visitedArms, visitedTail⟩ := visitedAll_cons visited
      obtain ⟨visitedTrue, visitedFalse⟩ := Bool.and_eq_true_iff.mp visitedArms
      obtain ⟨insideTrue, keptTrue⟩ := runTrue.heights enteredTrue.matched tracks visitedTrue framedTrue.checked
        enteredTrue.standing
      have enteredFalse := startElse_entered framedFalse matched all runTrue opens.height insideTrue.bottom
      obtain ⟨insideFalse, keptFalse⟩ := runFalse.heights enteredFalse.matched tracks visitedFalse framedFalse.checked
        enteredFalse.standing
      have started : Keeps (base + below.types.length) rest (first.startElse
          (context.ifLabel block value rest decl types) (context.function.blocks.length + 1)
            (rest.take decl.params.length)).stack :=
        (leave_keeps .if_ keptTrue (opens.pos .if_ (by decide))).append _
      refine .if_ ahead head top popTop opens framedTrue framedFalse all
        (ihTrue enteredTrue.matched tracks visitedTrue framedTrue.checked enteredTrue.standing) runTrue closableTrue
        keptTrue (ihFalse enteredFalse.matched tracks visitedFalse framedFalse.checked enteredFalse.standing) runFalse
        closableFalse (started.trans (keptFalse.mono (Nat.le_add_right _ _)
          (by rw [enteredFalse.height]; exact Nat.le_add_right _ _))) ?_
      exact ihTail (matched.same
        (by simp [leave, runFalse.blockStack, startElse_blockStack runTrue])
        (by simp [runFalse.locals, startElse, runTrue.locals, startThen, openLabel, branchToArms,
          compareZero])) tracks (visitedTail Bool.false_ne_true) more
        (leave_standing (by decide) (exitLabel_sized _ _ _ all) (opens.pos .if_ (by decide))
          (Nat.le_trans (Nat.le_add_right _ _) insideFalse.bottom) opens.live)

theorem ValidRun.standing (run : ValidRun I holds validation base operands context exprs after final) :
    Standing base final after := by
  induction run with
  | nil standing => exact standing
  | skipped nowhere bottom => exact ⟨bottom, fun reached => absurd nowhere reached⟩
  | step _ _ _ _ _ ih => exact ih
  | block _ _ _ _ _ _ _ _ _ _ _ ih => exact ih
  | loop _ _ _ _ _ _ _ _ _ _ _ ih => exact ih
  | if_ _ _ _ _ _ _ _ _ _ _ _ _ _ _ _ _ _ _ _ ih => exact ih

end Runs

end WasmToLlvm.Block
