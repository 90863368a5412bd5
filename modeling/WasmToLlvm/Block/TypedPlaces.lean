import WasmToLlvm.Block.TypedRuns

/-!
# Types at all places

The values on the symbolic stack have the LLVM types of their types at every expression
that is visited, and so has the value that a function returns.
-/

set_option autoImplicit false

namespace WasmToLlvm.Block

open Llvm Wasm Library BlockContext

variable {I : InstructionSet}

/-! ## Places -/

/-- What holds of the types at an expression that is visited: the operands that validation
gives it are on top of the stack, labels and locals are as validation says, and the code so
far is typed. -/
structure TypedPlace (agrees : I.Op → List Ty → Ty → Prop) (results : List Ty) (signature : I.Instr → Option FuncSignature)
    (func : Func I.Instr) (place : Place I) : Prop where
  operands : ∃ operands after base,
    checkExpr (frameValidation signature func place.frames) place.expr operands = some after ∧ operands.Live ∧
      TypedStack base operands place.context.stack
  conforms : Conforms place.context (frameValidation signature func place.frames)
  agreed : place.context.function.Agrees agrees results

/-- What holds where the visit of a body stands. -/
structure TypedBody (agrees : I.Op → List Ty → Ty → Prop) (results : List Ty) (holds : I.Instr → Bool)
    (signature : I.Instr → Option FuncSignature) (func : Func I.Instr) (context : BlockContext I.Op)
    (entry : Option Nat) (exprs : List (Expr I.Instr)) (frames : List Frame) : Prop where
  synced : Synced context entry
  matched : Matches context (frameValidation signature func frames)
  conforms : Conforms context (frameValidation signature func frames)
  typed : ∃ operands after base, checkExprs (frameValidation signature func frames) exprs operands = some after ∧
    Standing base context operands ∧ TypedContext agrees results base operands context
  visited : context.insertPoint ≠ none → ExprList.visitedAll holds exprs

section Bodies

variable {agrees : I.Op → List Ty → Ty → Prop} {results : List Ty} {holds : I.Instr → Bool}
  {signature : I.Instr → Option FuncSignature} {func : Func I.Instr} {context next opened : BlockContext I.Op}
  {entry entry' : Option Nat} {block exit : Nat} {expr : Expr I.Instr} {exprs body other : List (Expr I.Instr)}
  {frames : List Frame} {decl : BlockDeclaration} {stackPos : Int} {phis : List PHINode} {arms : ArmBlocks}

/-- The first expression of a body at a place that can be reached. -/
structure TypedFirst (agrees : I.Op → List Ty → Ty → Prop) (results : List Ty) (holds : I.Instr → Bool)
    (signature : I.Instr → Option FuncSignature) (func : Func I.Instr) (context : BlockContext I.Op) (block : Nat)
    (expr : Expr I.Instr) (exprs : List (Expr I.Instr)) (frames : List Frame) (operands next after : Operands)
    (base : Nat) : Prop extends Ahead (frameValidation signature func frames) base operands context block where
  checked : checkExpr (frameValidation signature func frames) expr operands = some next
  rest : checkExprs (frameValidation signature func frames) exprs next = some after
  typed : TypedContext agrees results base operands context
  visited : Expr.visitedAll holds expr
  visitedRest : ¬expr.diverges → ExprList.visitedAll holds exprs

theorem TypedBody.first (typed : TypedBody agrees results holds signature func context entry (expr :: exprs) frames)
    (reachable : context.getInsertBlock ≠ none) :
    ∃ block operands next after base, entry = some block ∧
      TypedFirst agrees results holds signature func context block expr exprs frames operands next after base := by
  have reached : context.insertPoint ≠ none := by
    intro nowhere
    exact reachable (by rw [getInsertBlock, nowhere]; rfl)
  obtain ⟨block, here, rfl⟩ := typed.synced.resolve_left reached
  obtain ⟨operands, after, base, checked, standing, stack⟩ := typed.typed
  obtain ⟨next, first, rest⟩ := checkExprs_cons checked
  obtain ⟨visited, visitedRest⟩ := visitedAll_cons (typed.visited reached)
  exact ⟨block, operands, next, after, base, rfl, standing.ahead here typed.matched, first, rest, stack, visited,
    visitedRest⟩

theorem TypedBody.place (typed : TypedBody agrees results holds signature func context entry (expr :: exprs) frames)
    (reachable : context.getInsertBlock ≠ none) :
    TypedPlace agrees results signature func ⟨context, entry, exit, expr, frames⟩ := by
  obtain ⟨block, operands, middle, after, base, rfl, first⟩ := typed.first reachable
  exact ⟨⟨operands, middle, base, first.checked, first.live, first.typed.stack first.here.reachable⟩, typed.conforms,
    first.typed.agreed⟩

/-- What is visited follows its signature, and keeps the types. -/
structure Keeping (agrees : I.Op → List Ty → Ty → Prop) (holds : I.Instr → Bool)
    (signature : I.Instr → Option FuncSignature) : Prop where
  tracks : ∀ instr, holds instr → I.TracksAt signature instr
  retypes : ∀ instr, holds instr → I.RetypesAt agrees signature instr

/-- The rest of a body is visited from where its first expression ends. -/
theorem TypedBody.behind (typed : TypedBody agrees results holds signature func context entry (expr :: exprs) frames)
    (keeping : Keeping agrees holds signature) (reachable : context.getInsertBlock ≠ none)
    (ran : visitExpr I entry exit expr context = .ok (entry', next)) :
    TypedBody agrees results holds signature func next entry' exprs frames := by
  obtain ⟨block, operands, middle, after, base, rfl, first⟩ := typed.first reachable
  obtain ⟨emits, synced⟩ := visitExpr_emits first.here ran
  have single : checkExprs (frameValidation signature func frames) [expr] operands = some middle := by
    simp [checkExprs, first.checked]
  have alone : ExprList.visitedAll holds [expr] := by
    rw [ExprList.visitedAll, first.visited, ExprList.visitedAll, Bool.or_true]
    rfl
  have run := emits.validRun typed.matched keeping.tracks alone single first.standing
  refine ⟨synced, typed.matched.same emits.blockStack emits.locals, typed.conforms.same emits.blockStack emits.locals,
    ⟨middle, after, base, first.rest, run.standing, run.typed keeping.retypes typed.conforms first.typed⟩, ?_⟩
  intro reached
  refine first.visitedRest fun diverges => reached (emits.nowhere_iff.mpr (.inr ?_))
  rw [ExprList.diverges, diverges, Bool.true_or]

/-- The body of a construct is visited in a frame of its own. -/
theorem TypedBody.enter (typed : TypedBody agrees results holds signature func context entry (expr :: exprs) frames)
    {frame : Frame} {label : BreakoutTarget} {final : Operands} {base : Nat}
    (entered : Entered (frameValidation signature func frames) frame.types frame.decl body final base opened)
    (there : opened.At block) (labels : opened.blockStack = label :: context.blockStack)
    (locals : opened.locals = context.locals) (has : label.HasTypes frame.types)
    (inside : TypedContext agrees results base (.live frame.decl.params.reverse) opened)
    (visited : ExprList.visitedAll holds body) :
    TypedBody agrees results holds signature func opened (some block) body (frame :: frames) where
  synced := .inr ⟨block, there, rfl⟩
  matched := entered.matched
  conforms := typed.conforms.push labels locals has
  typed := ⟨_, final, base, entered.framed.checked, entered.standing, inside⟩
  visited := fun _ => visited

theorem TypedBody.intoBlock {exitBlock : Nat}
    (typed : TypedBody agrees results holds signature func context entry (.block decl body :: exprs) frames)
    (reachable : context.getInsertBlock ≠ none)
    (opens : beginBlock entry decl context = .ok ((exitBlock, stackPos, phis), opened)) :
    TypedBody agrees results holds signature func opened entry body
      (⟨.block, decl, exitBlock, context.stack.length - decl.params.length⟩ :: frames) := by
  obtain ⟨block, operands, middle, after, base, rfl, first⟩ := typed.first reachable
  obtain ⟨rfl, types, all, rfl⟩ := beginBlock_starts opens
  obtain ⟨below, final, popped, framed, rfl⟩ := checkExpr_block first.checked
  have opens := opens_of_live first.live first.height popped
  exact typed.enter (startBlock_entered framed first.here typed.matched all opens.height)
    (startBlock_at decl types first.here) rfl rfl (exitLabel_hasTypes all)
    (startBlock_typed first.typed first.here first.live opens) first.visited

theorem TypedBody.intoLoop {entryBlock : Nat}
    (typed : TypedBody agrees results holds signature func context entry (.loop decl body :: exprs) frames)
    (reachable : context.getInsertBlock ≠ none)
    (opens : beginLoop exit decl context = .ok ((entryBlock, stackPos, phis), opened)) :
    TypedBody agrees results holds signature func opened (some entryBlock) body
      (⟨.loop, decl, entryBlock, context.stack.length - decl.params.length⟩ :: frames) := by
  obtain ⟨block, operands, middle, after, base, rfl, first⟩ := typed.first reachable
  obtain ⟨rfl, types, all, _, rfl⟩ := beginLoop_starts first.here opens
  obtain ⟨below, final, popped, framed, rfl⟩ := checkExpr_loop first.checked
  have opens := opens_of_live first.live first.height popped
  exact typed.enter (startLoop_entered block framed typed.matched all opens.height) (startLoop_at decl types) rfl rfl
    (loopLabel_hasTypes all) (startLoop_typed first.typed first.here first.live all opens) first.visited

theorem opens_of_condition {context : BlockContext I.Op} {value : Value} {rest : List Value}
    {operands condition below : Operands} {base : Nat} (live : operands.Live)
    (height : context.stack.length = base + operands.types.length) (top : context.stack = value :: rest)
    (popTop : operands.popExpect .i32 = some condition) (popped : condition.popList decl.params = some below) :
    Opens decl condition below rest base := by
  have pops := live.popExpect popTop
  refine opens_of_live pops.live ?_ popped
  have length := pops.length
  rw [top, List.length_cons] at height
  omega

theorem TypedBody.intoThen
    (typed : TypedBody agrees results holds signature func context entry (.if_ decl body other :: exprs) frames)
    (reachable : context.getInsertBlock ≠ none)
    (opens : beginThen decl context = .ok ((arms, stackPos, phis), opened)) :
    TypedBody agrees results holds signature func opened (some arms.ifBlock) body
      (⟨.if_, decl, arms.exitBlock, context.stack.length - 1 - decl.params.length⟩ :: frames) := by
  obtain ⟨block, operands, middle, after, base, rfl, first⟩ := typed.first reachable
  obtain ⟨value, rest, types, starts, _, _, rfl⟩ := beginThen_starts first.here opens
  obtain rfl := starts.arms
  obtain ⟨condition, below, _, _, popTop, popped, framed, _, rfl⟩ := checkExpr_if first.checked
  have opens := opens_of_condition first.live first.height starts.top popTop popped
  exact typed.enter (startThen_entered block value framed typed.matched starts.all opens.height)
    (startThen_at decl types value rest) rfl rfl (exitLabel_hasTypes starts.all)
    (startThen_typed first.typed first.here first.live starts.top popTop opens) (Bool.and_eq_true_iff.mp first.visited).1

/-- The second arm takes over the label of the first one. -/
theorem TypedBody.intoElse
    (typed : TypedBody agrees results holds signature func context entry (.if_ decl body other :: exprs) frames)
    (keeping : Keeping agrees holds signature) (reachable : context.getInsertBlock ≠ none)
    (opens : beginElse I decl body context = .ok ((arms, stackPos, phis), opened)) :
    TypedBody agrees results holds signature func opened (some arms.elseBlock) other
      (⟨.if_, decl, arms.exitBlock, context.stack.length - 1 - decl.params.length⟩ :: frames) := by
  obtain ⟨block, operands, middle, after, base, rfl, first⟩ := typed.first reachable
  obtain ⟨value, rest, types, inner, starts, emits, closable, rfl⟩ := beginElse_starts first.here opens
  obtain rfl := starts.arms
  obtain ⟨condition, below, _, _, popTop, popped, framed, framedElse, rfl⟩ := checkExpr_if first.checked
  have opens := opens_of_condition first.live first.height starts.top popTop popped
  have entered := startThen_entered block value framed typed.matched starts.all opens.height
  have visited := Bool.and_eq_true_iff.mp first.visited
  have run := emits.validRun entered.matched keeping.tracks visited.1 framed.checked entered.standing
  obtain ⟨inside, keeps⟩ := emits.heights entered.matched keeping.tracks visited.1 framed.checked entered.standing
  have has : (context.ifLabel block value rest decl types).HasTypes decl.results := exitLabel_hasTypes starts.all
  have arm := run.typed keeping.retypes (typed.conforms.push rfl rfl has)
    (startThen_typed first.typed first.here first.live starts.top popTop opens)
  exact typed.enter (startElse_entered framedElse typed.matched starts.all emits opens.height inside.bottom)
    (startElse_placed emits) (startElse_blockStack emits)
    (by simp [startElse, emits.locals, startThen, openLabel, branchToArms, compareZero]) has
    (nextArm_typed first.typed first.here first.live starts.top popTop opens starts.all framed emits closable keeps inside
      arm) visited.2

/-- The invariant holds at every expression that is visited in a body. -/
theorem Visits.typed {place : Place I} (visits : Visits I context entry exit exprs frames place)
    (keeping : Keeping agrees holds signature)
    (typed : TypedBody agrees results holds signature func context entry exprs frames) :
    TypedPlace agrees results signature func place := by
  induction visits with
  | here reachable => exact typed.place reachable
  | behind reachable ran _ ih => exact ih (typed.behind keeping reachable ran)
  | block reachable opens _ ih => exact ih (typed.intoBlock reachable opens)
  | loop reachable opens _ ih => exact ih (typed.intoLoop reachable opens)
  | then_ reachable opens _ ih => exact ih (typed.intoThen reachable opens)
  | else_ reachable opens _ ih => exact ih (typed.intoElse keeping reachable opens)

end Bodies

/-! ## Functions -/

section Functions

variable {agrees : I.Op → List Ty → Ty → Prop} {holds : I.Instr → Bool} {signature : I.Instr → Option FuncSignature}
  {func : Func I.Instr} {params locals results : List Ty} {final : BlockContext I.Op}

theorem storageLocals_types (entries : List (Ty × Value)) (next : Nat) :
    (storageLocals next entries).map AllocaInst.allocatedType = entries.map Prod.fst := by
  induction entries generalizing next with
  | nil => rfl
  | cons entry entries ih => simp [storageLocals, ih]

theorem storage_agrees (entries : List (Ty × Value)) (next : Nat) :
    ∀ inst ∈ (storage next entries : List (Inst I.Op)), inst.Agrees agrees results := by
  induction entries generalizing next with
  | nil => exact fun _ member => absurd member List.not_mem_nil
  | cons entry entries ih =>
      intro inst member
      rcases List.mem_cons.mp member with rfl | member
      · exact trivial
      · rcases List.mem_cons.mp member with rfl | member
        · exact rfl
        · exact ih (next + 2) inst member

theorem store_agrees {context : BlockContext I.Op} (agreed : context.function.Agrees agrees results) (block : Nat)
    (entries : List (Ty × Value)) : (context.store block entries).function.Agrees agrees results :=
  agreed.appendAll block (storage_agrees entries _)

theorem startFunc_conforms (paramsOk : Convert func.decl.params params) (localsOk : Convert func.localTypes locals)
    (resultsOk : Convert func.decl.results results) :
    Conforms (startFunc params locals results func.decl) (funcValidation signature func) where
  labels := .cons (exitLabel_hasTypes resultsOk) .nil
  outermost := ⟨[], _, rfl, exitLabel_hasTypes resultsOk⟩
  locals := by
    have types : (startFunc params locals results func.decl : BlockContext I.Op).locals.map AllocaInst.allocatedType =
        params ++ locals := by
      simp [startFunc, openLabel, prologue, store, storageLocals_types, arguments_types, zeros, Function.comp_def]
    rw [types]
    exact List.rel_append paramsOk localsOk

theorem startFunc_typed : TypedContext agrees results 0 (.live [])
    (startFunc params locals results func.decl : BlockContext I.Op) where
  logged := startFunc_logged _ _ _ _
  agreed := by
    let opened : BlockContext I.Op := (BlockContext.newBlock ⟨.empty, none, [], [], [], []⟩ "allocator").moveTo 0
    have first : opened.function.Agrees agrees results := Function.agrees_empty.newBlock "allocator"
    have stored := store_agrees (store_agrees first 0 (arguments 0 params)) 0 (zeros locals)
    exact (stored.newBlock "return").appendPhis 1 (phiInsts_isPhi results 0)
  stack := fun _ => ⟨[], [], rfl, ⟨rfl, fun _ member => absurd member List.not_mem_nil⟩, .nil⟩

/-- The returned value has the type of the result. -/
theorem finish_agrees {context : BlockContext I.Op} {block : Nat} (resultsOk : Convert func.decl.results results)
    (single : func.decl.results.length ≤ 1) (agreed : context.function.Agrees agrees results)
    (stack : TypedStack 0 ((Operands.live []).pushList func.decl.results) context.stack) :
    (context.finish block func.decl.results.length).function.Agrees agrees results := by
  obtain ⟨front, below, split, all, _⟩ := stack.popList
    (Operands.Live.pushList (Operands.live_live []) _) (Operands.popList_pushList _ _)
  generalize func.decl.results = types at resultsOk single all
  cases resultsOk with
  | nil => exact agreed.append block rfl
  | @cons type converted types converts is others =>
      obtain rfl : types = [] := List.length_eq_zero_iff.mp (by simpa using single)
      obtain rfl := List.forall₂_nil_left_iff.mp others
      obtain ⟨value, isValue, rfl⟩ : ∃ value, convertType? type = some value.type ∧ front = [value] := by
        obtain ⟨_, _, is', none, same⟩ := List.forall₂_cons_left_iff.mp all
        obtain rfl := List.forall₂_nil_left_iff.mp none
        obtain ⟨value, _, rfl, rfl, nothing⟩ := List.map_eq_cons_iff.mp same
        exact ⟨value, is', by rw [List.map_eq_nil_iff.mp nothing]⟩
      simp only [finish, List.length_cons, split, List.singleton_append]
      exact agreed.append block (show [value.type] = [converted] by rw [Option.some.inj (isValue.symm.trans is)])

/-- At every expression that is visited in a validated function the stack is typed, if all
instructions that are visited keep the types; the code of a finished translation is typed. -/
theorem FuncVisits.typed {place : Place I} (visits : FuncVisits I func place) (validated : Validated signature func)
    (keeping : Keeping agrees holds signature) (visited : ExprList.visitedAll holds func.exprs) :
    ∃ results, Convert func.decl.results results ∧ TypedPlace agrees results signature func place := by
  obtain ⟨allocaBlock, returnBlock, stackPos, phis, opened, opens, visits⟩ := visits
  obtain ⟨rfl, rfl, params, locals, results, paramsOk, localsOk, resultsOk, rfl⟩ := beginFunc_starts opens
  obtain ⟨operands, checked, _⟩ := validated_iff.mp validated
  refine ⟨results, resultsOk, visits.typed keeping ⟨.inr ⟨0, startFunc_at _ _ _ _, rfl⟩,
    startFunc_matches paramsOk localsOk resultsOk, startFunc_conforms paramsOk localsOk resultsOk,
    ⟨_, operands, 0, checked, startFunc_standing, startFunc_typed⟩, fun _ => visited⟩⟩

theorem EmitsFunc.typed (emits : EmitsFunc I func final) (validated : Validated signature func)
    (keeping : Keeping agrees holds signature) (visited : ExprList.visitedAll holds func.exprs) :
    ∃ results, Convert func.decl.results results ∧ final.function.Agrees agrees results := by
  obtain @⟨params, locals, results, inner, paramsOk, localsOk, resultsOk, run, closable, single⟩ := emits
  obtain ⟨operands, checked, closed⟩ := validated_iff.mp validated
  have valid : ValidRun I holds (funcValidation signature func) 0 (Operands.live []) _ func.exprs operands inner :=
    run.validRun (startFunc_matches paramsOk localsOk resultsOk) keeping.tracks visited checked startFunc_standing
  have start : TypedContext agrees results 0 (.live []) (startFunc params locals results func.decl : BlockContext I.Op) :=
    startFunc_typed
  have inside := valid.typed keeping.retypes (startFunc_conforms paramsOk localsOk resultsOk) start
  have top : inner.blockStack = [funcLabel I.Op params locals results func.decl] := run.blockStack
  have placed := run.placed (.inr ⟨0, startFunc_at _ _ _ _⟩)
  have nothing : TypedStack 0 (Operands.live []) [] :=
    ⟨[], [], rfl, ⟨rfl, fun _ member => absurd member List.not_mem_nil⟩, .nil⟩
  have left := leave_typed .func 1 (by decide) placed inside valid.standing closed (top ▸ List.mem_cons_self)
    (exitLabel_hasTypes resultsOk) closable rfl nothing List.nil_suffix
  have bound : 1 < (inner.leave .func (funcLabel I.Op params locals results func.decl)).function.blocks.length := by
    rw [leave_blocks_length]
    exact (inside.logged.labelled _ (top ▸ List.mem_cons_self)).bound
  exact ⟨results, resultsOk, finish_agrees resultsOk single left.agreed (left.stack (moveTo_at bound).reachable)⟩

end Functions

end WasmToLlvm.Block
