import WasmToLlvm.Block.Standing

/-!
# Completion

Which validated functions the translator completes. Validation gives the height of
the symbolic stack at every place that is visited; what can still fail are types
without a translation, the parameters of a loop at its end, and the results of a
conditional whose first arm ends in a transfer.
-/

set_option autoImplicit false

namespace WasmToLlvm.Block

open Llvm Wasm Library BlockContext

/-- Types that `convertType` translates. -/
def supported (type : ValType) : Bool :=
  (convertType? type).isSome

end WasmToLlvm.Block

namespace WasmToLlvm.Wasm

open Block (supported)

mutual

/-- What the translator needs of an expression at a height of the symbolic stack. -/
def Expr.fits {Instr : Type} (signature : Instr → Option FuncSignature) (height : Nat) :
    Expr Instr → Bool
  | .block decl exprs => decl.results.all supported && ExprList.fits signature height exprs
  | .loop decl exprs =>
      decl.params.all supported && ExprList.fits signature height exprs &&
        (ExprList.diverges exprs ||
          decide (decl.params.length ≤ height - decl.params.length + decl.results.length))
  | .if_ decl trueExprs falseExprs =>
      -- what a first arm leaves on the stack if its end cannot be reached
      let left := if ExprList.diverges trueExprs then decl.results.length else 0
      decl.results.all supported && ExprList.fits signature (height - 1) trueExprs &&
        ExprList.fits signature (height - 1 + left) falseExprs &&
        (decide (left = 0) || ExprList.diverges falseExprs)
  | _ => true

def ExprList.fits {Instr : Type} (signature : Instr → Option FuncSignature) (height : Nat) :
    List (Expr Instr) → Bool
  | [] => true
  | expr :: exprs =>
      Expr.fits signature height expr &&
        (Expr.diverges expr || ExprList.fits signature (Expr.height signature height expr) exprs)

end

def Func.fits {Instr : Type} (signature : Instr → Option FuncSignature) (func : Func Instr) : Bool :=
  func.decl.params.all supported && func.localTypes.all supported &&
    func.decl.results.all supported && ExprList.fits signature 0 func.exprs

end WasmToLlvm.Wasm

namespace WasmToLlvm.Block

open Llvm Wasm Library BlockContext

theorem convert_iff {types : List ValType} :
    (∃ converted, Convert types converted) ↔ types.all supported := by
  induction types with
  | nil => exact ⟨fun _ => rfl, fun _ => ⟨[], .nil⟩⟩
  | cons type types ih =>
      rw [List.all_cons, Bool.and_eq_true, ← ih]
      constructor
      · rintro ⟨_, all⟩
        cases all with
        | cons found all => exact ⟨by simp [supported, found], _, all⟩
      · rintro ⟨found, converted, all⟩
        obtain ⟨target, found⟩ := Option.isSome_iff_exists.mp found
        exact ⟨target :: converted, .cons found all⟩

variable {I : InstructionSet}

section Steps

variable {context next : BlockContext I.Op} {validation : ValidationContext I.Instr} {block : Nat}
  {operands after : Operands} {base : Nat}

/-- Validated code without a body is never stuck. -/
theorem step_exists {expr : Expr I.Instr} (bodyless : isBodyless expr)
    (follows : I.Follows validation.signature) (matched : Matches context validation)
    (checked : checkExpr validation expr operands = some after) (live : operands.Live)
    (height : context.stack.length = base + operands.types.length) :
    ∃ next, Step I context block expr next := by
  cases expr with
  | block | loop | if_ => cases bodyless
  | unreachable => exact ⟨_, .unreachable⟩
  | nop => exact ⟨_, .straight rfl rfl⟩
  | drop =>
      obtain ⟨type, popped⟩ := checkExpr_drop checked
      have length := (live.pop popped).length
      have tall : context.stack.length = base + after.types.length + 1 := by omega
      obtain ⟨value, rest, top, _⟩ := stack_cons tall
      exact ⟨_, .straight rfl (visitDrop_ok.mpr ⟨value, rest, top, rfl⟩)⟩
  | select resultType =>
      obtain ⟨below, pops, _, _⟩ := checkExpr_select live checked
      have length := pops.length
      have tall : context.stack.length = base + below.types.length + 2 + 1 := by omega
      obtain ⟨condition, lower, top, short⟩ := stack_cons tall
      obtain ⟨right, lowest, second, short⟩ := stack_cons short
      obtain ⟨left, rest, third, _⟩ := stack_cons short
      refine ⟨_, .straight rfl (visitSelectExpr_ok.mpr ⟨condition, right, left, rest, ?_, rfl⟩)⟩
      exact top.trans (by rw [second, third])
  | localGet index =>
      obtain ⟨type, found, rfl⟩ := checkExpr_localGet checked
      have inside := (List.getElem?_eq_some_iff.mp found).1
      exact ⟨_, .straight rfl (visitLocalGet_ok.mpr
        ⟨_, List.getElem?_eq_getElem (matched.locals ▸ inside), rfl⟩)⟩
  | localSet index =>
      obtain ⟨type, found, popped⟩ := checkExpr_localSet checked
      have inside := (List.getElem?_eq_some_iff.mp found).1
      have length := (live.popExpect popped).length
      have tall : context.stack.length = base + after.types.length + 1 := by omega
      obtain ⟨value, rest, top, _⟩ := stack_cons tall
      exact ⟨_, .straight rfl (visitLocalSet_ok.mpr
        ⟨value, rest, _, top, List.getElem?_eq_getElem (matched.locals ▸ inside), rfl⟩)⟩
  | localTee index =>
      obtain ⟨type, lower, found, popped, rfl⟩ := checkExpr_localTee checked
      have inside := (List.getElem?_eq_some_iff.mp found).1
      have length := (live.popExpect popped).length
      have tall : context.stack.length = base + lower.types.length + 1 := by omega
      obtain ⟨value, rest, top, _⟩ := stack_cons tall
      exact ⟨_, .straight rfl (visitLocalTee_ok.mpr
        ⟨value, rest, _, top, List.getElem?_eq_getElem (matched.locals ▸ inside), rfl⟩)⟩
  | instr instr =>
      obtain ⟨type, rest, found, popped, rfl⟩ := checkExpr_instr checked
      have length := (live.popList popped).length
      obtain ⟨final, results, ran, _⟩ := follows instr type found (visitStart context)
        (by show _ ≤ context.stack.length; omega)
      exact ⟨_, .straight rfl ran⟩
  | br depth =>
      obtain ⟨types, rest, found, popped⟩ := checkExpr_br checked
      have length := (live.popList popped).length
      obtain ⟨label, branches⟩ := matched.branches context.stack found (by omega)
      exact ⟨_, .br branches⟩
  | return_ =>
      obtain ⟨rest, popped⟩ := checkExpr_return checked
      have length := (live.popList popped).length
      obtain ⟨front, last, stack, isFunc, results⟩ := matched.outermost
      have branches : Branches context front.length last :=
        ⟨⟨by simp [stack], by omega⟩, fun _ => isFunc⟩
      exact ⟨_, .return_ (by simp [stack]) branches⟩
  | brIf depth =>
      obtain ⟨lower, types, below, top, found, popped, rfl⟩ := checkExpr_brIf checked
      have first := live.popExpect top
      have lengthFirst := first.length
      have length := (first.live.popList popped).length
      have tall : context.stack.length = base + lower.types.length + 1 := by omega
      obtain ⟨value, rest, stack, short⟩ := stack_cons tall
      obtain ⟨label, branches⟩ := matched.branches rest found (by omega)
      exact ⟨_, .brIf stack branches⟩
  | brTable targets default =>
      obtain ⟨lower, types, final, below, top, found, all, popped⟩ := checkExpr_brTable checked
      have first := live.popExpect top
      have lengthFirst := first.length
      obtain ⟨every, enough, finalLive, same⟩ := checkTargets_length all first.live
      have length := (finalLive.popList popped).length
      have tall : context.stack.length = base + lower.types.length + 1 := by omega
      obtain ⟨value, rest, stack, short⟩ := stack_cons tall
      obtain ⟨label, branches⟩ := matched.branches rest found (by omega)
      obtain ⟨labels, reaches⟩ := matched.reachesAll rest
        (fun nonempty => Nat.le_trans (enough nonempty) (by omega)) every
      exact ⟨_, .brTable stack branches reaches⟩

end Steps
/-! ## Completion -/

theorem fits_of_bodyless {expr : Expr I.Instr} (bodyless : isBodyless expr)
    (signature : I.Instr → Option FuncSignature) (height : Nat) : expr.fits signature height := by
  cases expr <;> first | rfl | cases bodyless

section Completion

variable {context next : BlockContext I.Op} {expr : Expr I.Instr} {exprs : List (Expr I.Instr)}
  {signature : I.Instr → Option FuncSignature} {height : Nat}

/-- The rest of a body, from the state that its first expression leaves. -/
theorem tail_iff (leaves : next.insertPoint = none ↔ expr.diverges)
    (same : next.insertPoint ≠ none → next.stack.length = expr.height signature height)
    (tail : (∃ final, Emits I next exprs final) ↔
      next.insertPoint = none ∨ ExprList.fits signature next.stack.length exprs) :
    (∃ final, Emits I next exprs final) ↔
      (expr.diverges || ExprList.fits signature (expr.height signature height) exprs) := by
  rw [tail, Bool.or_eq_true, ← leaves]
  by_cases nowhere : next.insertPoint = none
  · simp [nowhere]
  · rw [same nowhere]

end Completion

/-- What is to be shown of the code of a body: it is translated exactly if it fits. -/
def FitsIff (exprs : List (Expr I.Instr)) : Prop :=
  ∀ (context : BlockContext I.Op) (validation : ValidationContext I.Instr)
    (operands after : Operands) (base : Nat), Matches context validation →
    I.Follows validation.signature → checkExprs validation exprs operands = some after →
    Standing base context operands → context.Placed →
    ((∃ final, Emits I context exprs final) ↔
      context.insertPoint = none ∨ ExprList.fits validation.signature context.stack.length exprs)

section Constructs

variable {context opened : BlockContext I.Op} {validation : ValidationContext I.Instr} {block : Nat}
  {decl : BlockDeclaration} {body other exprs : List (Expr I.Instr)} {operands after frame : Operands}
  {base : Nat}

theorem Entered.fits_iff {label : List ValType}
    (entered : Entered validation label decl body frame base opened) (bodyIff : FitsIff body)
    (follows : I.Follows validation.signature) :
    (∃ inner, Emits I opened body inner) ↔
      ExprList.fits validation.signature (base + decl.params.length) body := by
  obtain ⟨block, there⟩ := entered.there
  have inside := bodyIff opened _ _ _ _ entered.matched follows entered.framed.checked
    entered.standing (.inr ⟨block, there⟩)
  rw [inside, entered.height]
  simp [there.reachable]

theorem Entered.inside {label : List ValType} {inner : BlockContext I.Op}
    (entered : Entered validation label decl body frame base opened)
    (follows : I.Follows validation.signature) (run : Emits I opened body inner) :
    Standing base inner frame :=
  run.standing entered.matched follows.tracks entered.framed.checked entered.standing

theorem bodyless_fits_iff {expr : Expr I.Instr} (bodyless : isBodyless expr) (tailIff : FitsIff exprs)
    (here : context.At block) (matched : Matches context validation)
    (follows : I.Follows validation.signature)
    (checked : checkExprs validation (expr :: exprs) operands = some after)
    (standing : Standing base context operands) :
    (∃ final, Emits I context (expr :: exprs) final) ↔
      ExprList.fits validation.signature context.stack.length (expr :: exprs) := by
  obtain ⟨next, first, rest⟩ := checkExprs_cons checked
  obtain ⟨live, height⟩ := standing.live here.reachable
  have tailFits : ∀ middle, Step I context block expr middle →
      ((∃ final, Emits I middle exprs final) ↔ (expr.diverges || ExprList.fits
        validation.signature (expr.height validation.signature context.stack.length) exprs)) :=
    fun middle step => tail_iff step.nowhere_iff (fun _ => step.height (fun instr _ => follows.tracks instr) first live height)
      (tailIff _ _ _ _ _ (matched.same step.blockStack step.locals) follows rest
        (step.standing here (fun instr _ => follows.tracks instr) first standing) (step.placed here))
  rw [ExprList.fits, Bool.and_eq_true, and_iff_right (fits_of_bodyless bodyless _ _)]
  constructor
  · rintro ⟨final, emits⟩
    cases emits with
    | skipped nowhere => exact absurd nowhere here.reachable
    | step here' step tail =>
        obtain rfl := here.unique here'
        exact (tailFits _ step).mp ⟨final, tail⟩
    | block | loop | if_ => cases bodyless
  · intro fits
    obtain ⟨middle, step⟩ := step_exists bodyless follows matched first live height
    obtain ⟨final, tail⟩ := (tailFits middle step).mpr fits
    exact ⟨final, .step here step tail⟩

theorem block_fits_iff (bodyIff : FitsIff body) (tailIff : FitsIff exprs) (here : context.At block)
    (matched : Matches context validation) (follows : I.Follows validation.signature)
    (checked : checkExprs validation (.block decl body :: exprs) operands = some after)
    (standing : Standing base context operands) :
    (∃ final, Emits I context (.block decl body :: exprs) final) ↔
      ExprList.fits validation.signature context.stack.length (.block decl body :: exprs) := by
  obtain ⟨next, first, rest⟩ := checkExprs_cons checked
  obtain ⟨below, frame, popped, framed, rfl⟩ := checkExpr_block first
  obtain ⟨live, height⟩ := standing.live here.reachable
  have pops := live.popList popped
  have length := pops.length
  have entry : context.stack.length = base + below.types.length + decl.params.length := by omega
  have pos : labelPos .block context.stack decl = (base + below.types.length : Nat) :=
    labelPos_eq .block nofun entry
  have entered := fun (types : List Ty) (all : Convert decl.results types) =>
    startBlock_entered framed here matched all entry
  have tailFits : ∀ {types inner}, Convert decl.results types →
      Emits I (context.startBlock block decl types) body inner →
      ((∃ final, Emits I ((inner.leave .block (context.blockLabel decl types)).moveTo
        context.function.blocks.length) exprs final) ↔
          ((Expr.block decl body).diverges || ExprList.fits validation.signature
            ((Expr.block decl body).height validation.signature context.stack.length) exprs)) := by
    intro types inner all run
    have left : Standing base ((inner.leave .block (context.blockLabel decl types)).moveTo
        context.function.blocks.length) (below.pushList decl.results) :=
      leave_standing (by decide) (exitLabel_sized _ _ _ all) pos
        ((entered types all).inside follows run).bottom pops.live
    refine tail_iff (by simp [Expr.diverges]) ?_ (tailIff _ _ _ _ _ (matched.same ?_ ?_) follows rest
      left (.inr ⟨_, afterBlock_at _ run⟩))
    · intro reached
      rw [(left.live reached).2, Operands.pushList_types_length, Expr.height]
      omega
    · simp [leave, run.blockStack, startBlock, openLabel]
    · simp [run.locals, startBlock, openLabel]
  simp only [ExprList.fits, Expr.fits, Bool.and_eq_true, ← convert_iff, entry]
  rw [← entry]
  constructor
  · rintro ⟨final, emits⟩
    cases emits with
    | skipped nowhere => exact absurd nowhere here.reachable
    | step _ step _ => cases step.bodyless
    | block here' all run closable tail =>
        obtain rfl := here.unique here'
        exact ⟨⟨⟨_, all⟩, entry ▸ ((entered _ all).fits_iff bodyIff follows).mp ⟨_, run⟩⟩,
          (tailFits all run).mp ⟨final, tail⟩⟩
  · rintro ⟨⟨⟨types, all⟩, fits⟩, more⟩
    obtain ⟨inner, run⟩ := ((entered types all).fits_iff bodyIff follows).mpr (entry ▸ fits)
    obtain ⟨final, tail⟩ := (tailFits all run).mpr more
    have inside : Standing (base + below.types.length + 0) inner frame :=
      (entered types all).inside follows run
    exact ⟨final, .block here all run (inside.closable framed.closed pos fun _ => rfl) tail⟩

theorem loop_fits_iff (bodyIff : FitsIff body) (tailIff : FitsIff exprs) (here : context.At block)
    (matched : Matches context validation) (follows : I.Follows validation.signature)
    (checked : checkExprs validation (.loop decl body :: exprs) operands = some after)
    (standing : Standing base context operands) :
    (∃ final, Emits I context (.loop decl body :: exprs) final) ↔
      ExprList.fits validation.signature context.stack.length (.loop decl body :: exprs) := by
  obtain ⟨next, first, rest⟩ := checkExprs_cons checked
  obtain ⟨below, frame, popped, framed, rfl⟩ := checkExpr_loop first
  obtain ⟨live, height⟩ := standing.live here.reachable
  have pops := live.popList popped
  have length := pops.length
  have entry : context.stack.length = base + below.types.length + decl.params.length := by omega
  have pos : labelPos .loop context.stack decl = (base + below.types.length : Nat) :=
    labelPos_eq .loop (by decide) entry
  have entered := fun (types : List Ty) (all : Convert decl.params.reverse types) =>
    startLoop_entered block framed matched all entry
  have tailFits : ∀ {types inner}, Convert decl.params.reverse types →
      Emits I (context.startLoop block decl types) body inner →
      ((∃ final, Emits I (inner.withLabels inner.blockStack.tail) exprs final) ↔
          ((Expr.loop decl body).diverges || ExprList.fits validation.signature
            ((Expr.loop decl body).height validation.signature context.stack.length) exprs)) := by
    intro types inner all run
    have left : Standing base (inner.withLabels inner.blockStack.tail)
        (below.pushList decl.results) :=
      leaveLoop_standing framed ((entered types all).inside follows run) pops.live
    refine tail_iff ?_ ?_ (tailIff _ _ _ _ _ (matched.same ?_ ?_) follows rest left ?_)
    · rw [withLabels_insertPoint, run.nowhere_iff, Expr.diverges]
      simp [(entered types all).reachable]
    · intro reached
      rw [(left.live reached).2, Operands.pushList_types_length, Expr.height]
      omega
    · simp [run.blockStack, startLoop, openLoop, branchToLoop]
    · simp [run.locals, startLoop, openLoop, openParams, branchToLoop]
    · exact (run.placed (.inr (entered types all).there)).imp_right fun placed =>
        placed.imp fun _ there => there.withLabels _
  have enough : decl.params.length ≤ context.stack.length := by omega
  have closable : ∀ {types inner}, Convert decl.params.reverse types →
      Emits I (context.startLoop block decl types) body inner →
      ((inner.insertPoint ≠ none →
        (inner.stack.length : Int) = labelPos .loop context.stack decl + decl.results.length ∧
          decl.params.length ≤ inner.stack.length) ↔
        (ExprList.diverges body ||
          decide (decl.params.length ≤ context.stack.length - decl.params.length + decl.results.length))) := by
    intro types inner all run
    have inside := (entered types all).inside follows run
    have leaves := run.nowhere_iff
    simp only [(entered types all).reachable, false_or] at leaves
    rw [Bool.or_eq_true, ← leaves, decide_eq_true_iff]
    by_cases nowhere : inner.insertPoint = none
    · simp [nowhere]
    · obtain ⟨frameLive, tall⟩ := inside.live nowhere
      have closed := frameLive.closeFrame framed.closed
      simp only [nowhere, false_or, ne_eq, not_false_eq_true, true_implies]
      omega
  simp only [ExprList.fits, Expr.fits, Bool.and_eq_true]
  rw [← List.all_reverse, ← convert_iff]
  constructor
  · rintro ⟨final, emits⟩
    cases emits with
    | skipped nowhere => exact absurd nowhere here.reachable
    | step _ step _ => cases step.bodyless
    | loop here' all _ run closes tail =>
        obtain rfl := here.unique here'
        have fits := ((entered _ all).fits_iff bodyIff follows).mp ⟨_, run⟩
        rw [← entry] at fits
        exact ⟨⟨⟨⟨_, all⟩, fits⟩, (closable all run).mp closes⟩, (tailFits all run).mp ⟨final, tail⟩⟩
  · rintro ⟨⟨⟨⟨types, all⟩, fits⟩, closes⟩, more⟩
    rw [entry] at fits
    obtain ⟨inner, run⟩ := ((entered types all).fits_iff bodyIff follows).mpr fits
    obtain ⟨final, tail⟩ := (tailFits all run).mpr more
    exact ⟨final, .loop here all enough run ((closable all run).mpr closes) tail⟩

theorem if_fits_iff (bodyIff : FitsIff body) (otherIff : FitsIff other) (tailIff : FitsIff exprs)
    (here : context.At block) (matched : Matches context validation)
    (follows : I.Follows validation.signature)
    (checked : checkExprs validation (.if_ decl body other :: exprs) operands = some after)
    (standing : Standing base context operands) :
    (∃ final, Emits I context (.if_ decl body other :: exprs) final) ↔
      ExprList.fits validation.signature context.stack.length (.if_ decl body other :: exprs) := by
  obtain ⟨next, first, rest⟩ := checkExprs_cons checked
  obtain ⟨condition, below, frame, frameElse, popTop, popped, framed, framedElse, rfl⟩ :=
    checkExpr_if first
  obtain ⟨live, height⟩ := standing.live here.reachable
  have pops := live.popExpect popTop
  have popsAll := pops.live.popList popped
  have lengthTop := pops.length
  have length := popsAll.length
  have tall : context.stack.length = base + condition.types.length + 1 := by omega
  obtain ⟨value, kept, top, short⟩ := stack_cons tall
  have entry : kept.length = base + below.types.length + decl.params.length := by omega
  have pos : labelPos .if_ kept decl = (base + below.types.length : Nat) :=
    labelPos_eq .if_ nofun entry
  have entered := fun (types : List Ty) (all : Convert decl.results types) =>
    startThen_entered block value framed matched all entry
  -- what the first arm leaves below the second one
  have leftFirst : ∀ {types inner}, Convert decl.results types →
      Emits I (context.startThen block value kept decl types) body inner →
      (if inner.insertPoint = none then decl.results.length else 0) =
        if ExprList.diverges body then decl.results.length else 0 := by
    intro types inner all run
    have leaves := run.nowhere_iff
    simp only [(entered types all).reachable, false_or] at leaves
    simp only [leaves]
  have enteredElse : ∀ {types inner} (_ : Convert decl.results types)
      (_ : Emits I (context.startThen block value kept decl types) body inner),
      Entered validation decl.results decl other frameElse
        (base + below.types.length + if ExprList.diverges body then decl.results.length else 0)
        (inner.startElse (context.ifLabel block value kept decl types)
          (context.function.blocks.length + 1) (kept.take decl.params.length)) := by
    intro types inner all run
    rw [← leftFirst all run]
    exact startElse_entered framedElse matched all run entry
      ((entered types all).inside follows run).bottom
  have tailFits : ∀ {types inner second} (all : Convert decl.results types)
      (run : Emits I (context.startThen block value kept decl types) body inner)
      (_ : Emits I (inner.startElse (context.ifLabel block value kept decl types)
          (context.function.blocks.length + 1) (kept.take decl.params.length)) other second),
      ((∃ final, Emits I ((second.leave .else_ (context.ifLabel block value kept decl types)).moveTo
        (context.function.blocks.length + 2)) exprs final) ↔
          ((Expr.if_ decl body other).diverges || ExprList.fits validation.signature
            ((Expr.if_ decl body other).height validation.signature context.stack.length) exprs)) := by
    intro types inner second all run runElse
    have left : Standing base ((second.leave .else_ (context.ifLabel block value kept decl types)).moveTo
        (context.function.blocks.length + 2)) (below.pushList decl.results) :=
      leave_standing (by decide) (exitLabel_sized _ _ _ all) pos (Nat.le_trans (Nat.le_add_right _ _)
        ((enteredElse all run).inside follows runElse).bottom) popsAll.live
    refine tail_iff (by simp [Expr.diverges]) ?_ (tailIff _ _ _ _ _ (matched.same ?_ ?_) follows rest
      left (.inr ⟨_, afterIf_at run runElse⟩))
    · intro reached
      rw [(left.live reached).2, Operands.pushList_types_length, Expr.height]
      omega
    · simp [leave, runElse.blockStack, startElse_blockStack run]
    · simp [runElse.locals, startElse, run.locals, startThen, openLabel, branchToArms, compareZero]
  have heightThen : context.stack.length - 1 = base + below.types.length + decl.params.length := by
    omega
  simp only [ExprList.fits, Expr.fits, Bool.and_eq_true, Bool.or_eq_true, decide_eq_true_eq,
    heightThen]
  rw [← convert_iff]
  constructor
  · rintro ⟨final, emits⟩
    cases emits with
    | skipped nowhere => exact absurd nowhere here.reachable
    | step _ step _ => cases step.bodyless
    | @if_ _ _ second _ _ _ _ _ _ _ _ types here' top' _ all run _ runElse closable tail =>
        obtain rfl := here.unique here'
        obtain ⟨rfl, rfl⟩ := List.cons.inj (top.symm.trans top')
        have fits := ((entered _ all).fits_iff bodyIff follows).mp ⟨_, run⟩
        have fitsElse := ((enteredElse all run).fits_iff otherIff follows).mp ⟨_, runElse⟩
        rw [Nat.add_right_comm] at fitsElse
        refine ⟨⟨⟨⟨⟨_, all⟩, fits⟩, fitsElse⟩, ?_⟩,
          Bool.or_eq_true_iff.mp ((tailFits all run runElse).mp ⟨final, tail⟩)⟩
        have leaves := runElse.nowhere_iff
        simp only [(enteredElse all run).reachable, false_or] at leaves
        rw [← leaves]
        by_cases nowhere : second.insertPoint = none
        · exact .inr nowhere
        · obtain ⟨frameLive, reached⟩ := ((enteredElse all run).inside follows runElse).live nowhere
          have closed := frameLive.closeFrame framedElse.closed
          have exact := closable.exact nowhere
          rw [show (context.ifLabel block value kept decl types).pos = _ from pos] at exact
          exact .inl (by omega)
  · rintro ⟨⟨⟨⟨⟨types, all⟩, fits⟩, fitsElse⟩, nothing⟩, more⟩
    rw [Nat.add_right_comm] at fitsElse
    obtain ⟨inner, run⟩ := ((entered types all).fits_iff bodyIff follows).mpr fits
    obtain ⟨second, runElse⟩ := ((enteredElse all run).fits_iff otherIff follows).mpr fitsElse
    obtain ⟨final, tail⟩ := (tailFits all run runElse).mpr (Bool.or_eq_true_iff.mpr more)
    have insideThen : Standing (base + below.types.length + 0) inner frame :=
      (entered types all).inside follows run
    have leaves := runElse.nowhere_iff
    simp only [(enteredElse all run).reachable, false_or] at leaves
    exact ⟨final, .if_ here top (by omega) all run (insideThen.closable framed.closed pos fun _ => rfl) runElse
      (((enteredElse all run).inside follows runElse).closable framedElse.closed pos fun reached =>
        nothing.resolve_right fun diverges => reached (leaves.mpr diverges)) tail⟩

end Constructs

/-- Validated code is translated exactly if it fits. -/
theorem emits_iff_fits : (exprs : List (Expr I.Instr)) → FitsIff exprs
  | [], context, _, _, _, _, _, _, _, _, _ => by
      simp only [ExprList.fits, or_true, iff_true]
      exact ⟨context, .nil⟩
  | expr :: exprs, context, validation, operands, after, base, matched, follows, checked, standing,
      placed => by
      rcases placed with nowhere | ⟨block, here⟩
      · simp only [nowhere, true_or, iff_true]
        exact ⟨context, .skipped nowhere⟩
      have tailIff := emits_iff_fits exprs
      simp only [here.reachable, false_or]
      by_cases bodyless : isBodyless expr
      · exact bodyless_fits_iff bodyless tailIff here matched follows checked standing
      cases expr with
      | block decl body =>
          exact block_fits_iff (emits_iff_fits body) tailIff here matched follows checked standing
      | loop decl body =>
          exact loop_fits_iff (emits_iff_fits body) tailIff here matched follows checked standing
      | if_ decl body other =>
          exact if_fits_iff (emits_iff_fits body) (emits_iff_fits other) tailIff here matched follows
            checked standing
      | _ => exact absurd rfl bodyless

/-! ## Functions -/

theorem storageLocals_length (entries : List (Ty × Value)) (next : Nat) :
    (storageLocals next entries).length = entries.length := by
  induction entries generalizing next with
  | nil => rfl
  | cons entry entries ih => simp [storageLocals, ih]

theorem arguments_length (types : List Ty) (index : Nat) :
    (arguments index types).length = types.length := by
  induction types generalizing index with
  | nil => rfl
  | cons type types ih => simp [arguments, ih]

section Functions

variable {func : Func I.Instr} {signature : I.Instr → Option FuncSignature} {params locals results : List Ty}

/-- What a function's body is validated against. -/
def funcValidation (signature : I.Instr → Option FuncSignature) (func : Func I.Instr) :
    ValidationContext I.Instr :=
  { labels := [func.decl.results], locals := func.locals, results := func.decl.results, signature }

theorem validated_iff :
    Validated signature func ↔
      ∃ final, checkExprs (funcValidation signature func) func.exprs (Operands.live []) = some final ∧
        closeFrame func.decl.results final = some () := by
  simp only [Validated, validates, Option.bind_eq_bind, Option.bind_eq_some_iff, funcValidation]

theorem startFunc_matches (paramsOk : Convert func.decl.params params)
    (localsOk : Convert func.localTypes locals) (resultsOk : Convert func.decl.results results) :
    Matches (startFunc params locals results func.decl) (funcValidation signature func) where
  labels := .cons (exitLabel_sized _ _ _ resultsOk) .nil
  outermost := ⟨[], _, rfl, rfl, exitLabel_sized _ _ _ resultsOk⟩
  locals := by
    simp [startFunc, openLabel, prologue, store, storageLocals_length, arguments_length, zeros,
      funcValidation, Func.locals, paramsOk.length_eq, localsOk.length_eq]

theorem startFunc_standing :
    Standing 0 (startFunc params locals results func.decl : BlockContext I.Op) (Operands.live []) :=
  ⟨Nat.zero_le _, fun _ => ⟨Operands.live_live _, rfl⟩⟩

/-- A validated function with at most one result is translated exactly if its locals,
results and visited labels have types that LLVM code is generated for, every visited
loop whose end is reached stands on a stack at least as high as its parameters, and
no visited conditional with results has a first arm that ends in a transfer and a
second one that does not. -/
theorem visitFunc_completes_iff (follows : I.Follows signature) (validated : Validated signature func)
    (single : func.decl.results.length ≤ 1) :
    (∃ final, visitFunc I func = .ok final) ↔ func.fits signature := by
  obtain ⟨operands, checked, closed⟩ := validated_iff.mp validated
  have bodyIff : ∀ {params locals results}, Convert func.decl.params params →
      Convert func.localTypes locals → Convert func.decl.results results →
      ((∃ inner, Emits I (startFunc params locals results func.decl) func.exprs inner) ↔
        ExprList.fits signature 0 func.exprs) := by
    intro params locals results paramsOk localsOk resultsOk
    have reached : (startFunc params locals results func.decl : BlockContext I.Op).At 0 :=
      startFunc_at _ _ _ _
    have started : Matches (startFunc params locals results func.decl) (funcValidation signature func) :=
      startFunc_matches paramsOk localsOk resultsOk
    have body := emits_iff_fits func.exprs _ _ _ _ _ started follows checked startFunc_standing
      (.inr ⟨0, reached⟩)
    exact body.trans (or_iff_right reached.reachable)
  simp only [visitFunc_ok, Func.fits, Bool.and_eq_true, ← convert_iff]
  constructor
  · rintro ⟨final, paramsOk, localsOk, resultsOk, run, closable, _⟩
    exact ⟨⟨⟨⟨_, paramsOk⟩, _, localsOk⟩, _, resultsOk⟩,
      (bodyIff paramsOk localsOk resultsOk).mp ⟨_, run⟩⟩
  · rintro ⟨⟨⟨⟨params, paramsOk⟩, locals, localsOk⟩, results, resultsOk⟩, fits⟩
    obtain ⟨inner, run⟩ := (bodyIff paramsOk localsOk resultsOk).mpr fits
    have started : Matches (startFunc params locals results func.decl) (funcValidation signature func) :=
      startFunc_matches paramsOk localsOk resultsOk
    have inside : Standing (0 + 0) inner operands :=
      run.standing started follows.tracks checked startFunc_standing
    exact ⟨_, .intro paramsOk localsOk resultsOk run (inside.closable closed rfl fun _ => rfl) single⟩

end Functions

/-- A conditional whose second arm ends in a transfer, in a loop with a parameter. -/
def elseReturns : Func controlOnly.Instr where
  decl := ⟨[.i32], [.i32]⟩
  localTypes := [.i64]
  exprs := [.localGet 0, .localGet 0, .loop ⟨[.i32], [.i32]⟩ [.if_ ⟨[], [.i32]⟩ [.localGet 0]
    [.localGet 0, .return_]], .brIf 0]

/-- A conditional whose first arm ends in a transfer and whose second one does not. -/
def thenReturns : Func controlOnly.Instr where
  decl := ⟨[.i32], [.i32]⟩
  localTypes := []
  exprs := [.localGet 0, .if_ ⟨[], [.i32]⟩ [.localGet 0, .return_] [.localGet 0]]

/-- A loop that consumes its parameter. -/
def loopDrops : Func controlOnly.Instr where
  decl := ⟨[.i32], []⟩
  localTypes := []
  exprs := [.localGet 0, .loop ⟨[.i32], []⟩ [.drop]]

/-- A local that holds a reference. -/
def referenceLocal : Func controlOnly.Instr := ⟨⟨[], []⟩, [.funcRef], []⟩

theorem controlOnly_follows : controlOnly.Follows nofun :=
  fun instr => nomatch instr

theorem visitFunc_completes_iff_elseReturns :
    ∃ final, visitFunc controlOnly elseReturns = .ok final :=
  (visitFunc_completes_iff controlOnly_follows (by decide +kernel) (by decide)).mpr (by decide)

theorem visitFunc_fails :
    (Validated (nofun : controlOnly.Instr → Option FuncSignature) thenReturns ∧
      ¬ ∃ final, visitFunc controlOnly thenReturns = .ok final) ∧
    (Validated (nofun : controlOnly.Instr → Option FuncSignature) loopDrops ∧
      ¬ ∃ final, visitFunc controlOnly loopDrops = .ok final) ∧
    (Validated (nofun : controlOnly.Instr → Option FuncSignature) referenceLocal ∧
      ¬ ∃ final, visitFunc controlOnly referenceLocal = .ok final) := by
  refine ⟨⟨by decide +kernel, ?_⟩, ⟨by decide +kernel, ?_⟩, ⟨by decide +kernel, ?_⟩⟩
  · rintro ⟨final, built⟩
    have failed : (visitFunc controlOnly thenReturns).isOk = false := by decide +kernel
    rw [built] at failed
    cases failed
  · rintro ⟨final, built⟩
    have failed : (visitFunc controlOnly loopDrops).isOk = false := by decide +kernel
    rw [built] at failed
    cases failed
  · rintro ⟨final, built⟩
    have failed : (visitFunc controlOnly referenceLocal).isOk = false := by decide +kernel
    rw [built] at failed
    cases failed

end WasmToLlvm.Block
