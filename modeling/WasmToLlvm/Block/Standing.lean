import WasmToLlvm.Block.Straight
import WasmToLlvm.Block.Success
import WasmToLlvm.Wasm.Heights

/-!
# The height of the symbolic stack

At every place that is visited the symbolic stack is as high as validation says, and
a body leaves what is below it alone.
-/

set_option autoImplicit false

namespace WasmToLlvm.Wasm

mutual

/-- Every straight-line instruction that is visited has a property. -/
def Expr.visitedAll {Instr : Type} (holds : Instr → Bool) : Expr Instr → Bool
  | .block _ exprs => ExprList.visitedAll holds exprs
  | .loop _ exprs => ExprList.visitedAll holds exprs
  | .if_ _ trueExprs falseExprs => ExprList.visitedAll holds trueExprs && ExprList.visitedAll holds falseExprs
  | .instr instr => holds instr
  | _ => true

def ExprList.visitedAll {Instr : Type} (holds : Instr → Bool) : List (Expr Instr) → Bool
  | [] => true
  | expr :: exprs => Expr.visitedAll holds expr && (Expr.diverges expr || ExprList.visitedAll holds exprs)

end

theorem visitedAll_cons {Instr : Type} {holds : Instr → Bool} {expr : Expr Instr} {exprs : List (Expr Instr)}
    (visited : ExprList.visitedAll holds (expr :: exprs)) :
    Expr.visitedAll holds expr ∧ (¬Expr.diverges expr → ExprList.visitedAll holds exprs) := by
  rw [ExprList.visitedAll, Bool.and_eq_true, Bool.or_eq_true] at visited
  exact ⟨visited.1, fun stays => visited.2.resolve_left stays⟩

mutual

theorem Expr.visitedAll_true {Instr : Type} : (expr : Expr Instr) → Expr.visitedAll (fun _ => true) expr
  | .block _ exprs => by rw [Expr.visitedAll]; exact ExprList.visitedAll_true exprs
  | .loop _ exprs => by rw [Expr.visitedAll]; exact ExprList.visitedAll_true exprs
  | .if_ _ trueExprs falseExprs => by
      rw [Expr.visitedAll, ExprList.visitedAll_true trueExprs, ExprList.visitedAll_true falseExprs]
      rfl
  | .instr _ | .br _ | .brIf _ | .brTable _ _ | .return_ | .unreachable | .nop | .drop | .select _
  | .localGet _ | .localSet _ | .localTee _ => rfl

theorem ExprList.visitedAll_true {Instr : Type} :
    (exprs : List (Expr Instr)) → ExprList.visitedAll (fun _ => true) exprs
  | [] => rfl
  | expr :: exprs => by
      rw [ExprList.visitedAll, Expr.visitedAll_true expr, ExprList.visitedAll_true exprs, Bool.or_true]
      rfl

end

end WasmToLlvm.Wasm

namespace WasmToLlvm.Block

open Llvm Wasm Library BlockContext

/-- Straight-line instructions are translated with the stack effect of their signature. -/
def InstructionSet.Follows (I : InstructionSet) (signature : I.Instr → Option FuncSignature) : Prop :=
  ∀ instr type, signature instr = some type → ∀ straight : Straight I.Op,
    type.params.length ≤ straight.stack.length →
      ∃ after results, I.visit instr straight = .ok ((), after) ∧
        after.stack = results ++ straight.stack.drop type.params.length ∧
        results.length = type.results.length

/-- Where the instruction is translated, the stack effect is that of its signature. -/
def InstructionSet.TracksAt (I : InstructionSet) (signature : I.Instr → Option FuncSignature) (instr : I.Instr) :
    Prop :=
  ∀ type, signature instr = some type → ∀ straight after : Straight I.Op,
    type.params.length ≤ straight.stack.length → I.visit instr straight = .ok ((), after) →
      ∃ results, after.stack = results ++ straight.stack.drop type.params.length ∧
        results.length = type.results.length

def InstructionSet.Tracks (I : InstructionSet) (signature : I.Instr → Option FuncSignature) : Prop :=
  ∀ instr, I.TracksAt signature instr

theorem InstructionSet.Follows.tracks {I : InstructionSet} {signature : I.Instr → Option FuncSignature}
    (follows : I.Follows signature) : I.Tracks signature := by
  intro instr type found straight after enough ran
  obtain ⟨actual, results, visited, effect⟩ := follows instr type found straight enough
  obtain ⟨_, rfl⟩ := Prod.mk.inj (Except.ok.inj (ran.symm.trans visited))
  exact ⟨results, effect⟩

variable {I : InstructionSet}

/-- The labels and locals of a translation are those of validation. -/
structure Matches (context : BlockContext I.Op) (validation : ValidationContext I.Instr) : Prop where
  labels : List.Forall₂ (fun label types => label.phis.length = List.length types) context.blockStack
    validation.labels
  outermost : ∃ front last, context.blockStack = front ++ [last] ∧ last.lty = .func ∧
    last.phis.length = validation.results.length
  locals : context.locals.length = validation.locals.length

/-- The symbolic stack is as high as validation says, above a base. -/
structure Standing (base : Nat) (context : BlockContext I.Op) (operands : Operands) : Prop where
  bottom : base ≤ context.stack.length
  live : context.insertPoint ≠ none →
    operands.Live ∧ context.stack.length = base + operands.types.length

section Matches

variable {context next : BlockContext I.Op} {validation : ValidationContext I.Instr}

theorem Matches.same (matched : Matches context validation)
    (labels : next.blockStack = context.blockStack) (locals : next.locals = context.locals) :
    Matches next validation := by
  obtain ⟨all, outermost, count⟩ := matched
  exact ⟨labels ▸ all, labels ▸ outermost, locals ▸ count⟩

theorem Matches.push (matched : Matches context validation) {label : BreakoutTarget}
    {types : List ValType} (labels : next.blockStack = label :: context.blockStack)
    (locals : next.locals = context.locals) (sized : label.phis.length = types.length) :
    Matches next (validation.withLabel types) where
  labels := labels ▸ .cons sized matched.labels
  outermost := by
    obtain ⟨front, last, stack, isFunc, results⟩ := matched.outermost
    exact ⟨label :: front, last, by rw [labels, stack, List.cons_append], isFunc, results⟩
  locals := locals ▸ matched.locals

theorem Matches.label (matched : Matches context validation) {depth : Nat} {types : List ValType}
    (found : validation.labels[depth]? = some types) :
    ∃ label, context.blockStack[depth]? = some label ∧ label.phis.length = types.length := by
  have same := matched.labels.length_eq
  have inside := (List.getElem?_eq_some_iff.mp found).1
  refine ⟨context.blockStack.get ⟨depth, same ▸ inside⟩, List.getElem?_eq_getElem _, ?_⟩
  have sized := matched.labels.get (same ▸ inside) inside
  rw [List.getElem?_eq_getElem inside, Option.some.injEq] at found
  rw [← found]
  exact sized

theorem Matches.lastLabel (matched : Matches context validation) {depth : Nat} {label : BreakoutTarget}
    (found : context.blockStack[depth]? = some label)
    (last : depth + 1 = context.blockStack.length) : label.lty = .func := by
  obtain ⟨front, outermost, stack, isFunc, _⟩ := matched.outermost
  rw [stack, List.length_append, List.length_singleton] at last
  obtain rfl : depth = front.length := by omega
  rw [stack, List.getElem?_concat_length] at found
  obtain rfl := Option.some.inj found
  exact isFunc

end Matches

/-! ## Expressions without a body -/

section Steps

variable {context next : BlockContext I.Op} {validation : ValidationContext I.Instr} {block : Nat}
  {operands after : Operands} {base : Nat}

theorem Matches.branches (matched : Matches context validation) {depth : Nat} {types : List ValType}
    (stack : List Value) (found : validation.labels[depth]? = some types)
    (enough : types.length ≤ stack.length) :
    ∃ label, Branches (context.withStack stack) depth label := by
  obtain ⟨label, there, sized⟩ := matched.label found
  exact ⟨label, ⟨there, sized ▸ enough⟩, matched.lastLabel there⟩

theorem Matches.reachesAll (matched : Matches context validation) {depths : List Nat} {arity : Nat}
    (stack : List Value) (enough : depths ≠ [] → arity ≤ stack.length)
    (all : ∀ depth ∈ depths, ∃ types, validation.labels[depth]? = some types ∧ types.length = arity) :
    ∃ labels, List.Forall₂ (Reaches (context.withStack stack)) depths labels := by
  induction depths with
  | nil => exact ⟨[], .nil⟩
  | cons depth depths ih =>
      obtain ⟨types, found, sized⟩ := all depth List.mem_cons_self
      obtain ⟨label, there, same⟩ := matched.label found
      obtain ⟨labels, rest⟩ := ih (fun _ => enough (List.cons_ne_nil _ _))
        (fun other member => all other (List.mem_cons_of_mem _ member))
      refine ⟨label :: labels, .cons ⟨there, ?_⟩ rest⟩
      rw [same, sized]
      exact enough (List.cons_ne_nil _ _)

theorem stack_cons {stack : List Value} {count : Nat} (height : stack.length = count + 1) :
    ∃ value rest, stack = value :: rest ∧ rest.length = count := by
  obtain ⟨value, rest, rfl⟩ := List.exists_cons_of_length_eq_add_one height
  exact ⟨value, rest, rfl, by simpa using height⟩
/-- A step leaves the height that the expression says. -/
theorem Step.height {expr : Expr I.Instr} (step : Step I context block expr next)
    (tracks : ∀ instr, expr = .instr instr → I.TracksAt validation.signature instr)
    (checked : checkExpr validation expr operands = some after) (live : operands.Live)
    (height : context.stack.length = base + operands.types.length) :
    next.stack.length = expr.height validation.signature context.stack.length := by
  cases step with
  | @straight _ visit final code ran =>
      show final.stack.length = _
      cases expr with
      | nop =>
          cases code
          obtain ⟨_, rfl⟩ := Prod.mk.inj (Except.ok.inj ran)
          rfl
      | drop =>
          cases code
          obtain ⟨value, rest, top, rfl⟩ := visitDrop_ok.mp ran
          rw [Expr.height, show context.stack = value :: rest from top]
          rfl
      | select resultType =>
          cases code
          obtain ⟨condition, right, left, rest, top, rfl⟩ := visitSelectExpr_ok.mp ran
          rw [Expr.height, show context.stack = condition :: right :: left :: rest from top]
          rfl
      | localGet index =>
          cases code
          obtain ⟨target, _, rfl⟩ := visitLocalGet_ok.mp ran
          rfl
      | localSet index =>
          cases code
          obtain ⟨value, rest, target, top, _, rfl⟩ := visitLocalSet_ok.mp ran
          rw [Expr.height, show context.stack = value :: rest from top]
          rfl
      | localTee index =>
          cases code
          obtain ⟨value, rest, target, top, _, rfl⟩ := visitLocalTee_ok.mp ran
          rfl
      | instr instr =>
          cases code
          obtain ⟨type, rest, found, popped, rfl⟩ := checkExpr_instr checked
          have length := (live.popList popped).length
          obtain ⟨results, stack, count⟩ := tracks instr rfl type found (visitStart context) final
            (by show _ ≤ context.stack.length; omega) ran
          rw [stack, List.length_append, List.length_drop, count, Expr.height, found]
          exact Nat.add_comm _ _
      | _ => cases code
  | unreachable => rfl
  | br _ => rfl
  | return_ _ _ => rfl
  | brIf top _ =>
      rw [Expr.height, top]
      rfl
  | brTable top _ _ =>
      rw [Expr.height, top, addTargets_stack]
      rfl

theorem Step.standing {expr : Expr I.Instr} (step : Step I context block expr next)
    (here : context.At block) (tracks : ∀ instr, expr = .instr instr → I.TracksAt validation.signature instr)
    (checked : checkExpr validation expr operands = some after)
    (standing : Standing base context operands) : Standing base next after := by
  obtain ⟨live, height⟩ := standing.live here.reachable
  have left := step.height tracks checked live height
  rw [height] at left
  cases stays : expr.diverges with
  | false =>
      obtain ⟨afterLive, same⟩ := checkExpr_height checked live stays base
      rw [same] at left
      exact ⟨by omega, fun _ => ⟨afterLive, left⟩⟩
  | true =>
      refine ⟨?_, fun reached => absurd (step.nowhere_iff.mpr stays) reached⟩
      cases step with
      | straight code _ => cases expr <;> first | cases code; done | cases stays
      | unreachable => exact standing.bottom
      | br _ => exact standing.bottom
      | return_ _ _ => exact standing.bottom
      | brIf _ _ => cases stays
      | brTable _ _ _ =>
          obtain ⟨rest, _, _, _, top, _⟩ := checkExpr_brTable checked
          have length := (live.popExpect top).length
          rw [left, Expr.height]
          omega

end Steps

/-! ## Frames -/

section Frames

variable {context inner : BlockContext I.Op} {validation : ValidationContext I.Instr} {block : Nat}
  {decl : BlockDeclaration} {types : List Ty} {body : List (Expr I.Instr)} {final : Operands}
  {base : Nat}

/-- A label can be left with what a validated frame ends with, and nothing below it. -/
theorem Standing.closable {results : List ValType} {left : Nat}
    (standing : Standing (base + left) inner final) (closed : closeFrame results final = some ())
    {pos : Int} (same : pos = base) (nothing : inner.insertPoint ≠ none → left = 0) :
    Closable inner pos results.length where
  positive := by omega
  enough := by
    have := standing.bottom
    omega
  exact := by
    intro reached
    obtain ⟨live, height⟩ := standing.live reached
    have count := live.closeFrame closed
    have := nothing reached
    omega

theorem leave_stack_length {label : BreakoutTarget} {arity base : Nat} (lty : LabelType)
    (sized : label.phis.length = arity) (pos : label.pos = base)
    (enough : base ≤ inner.stack.length) :
    (inner.leave lty label).stack.length =
      (if lty = .if_ ∧ inner.insertPoint ≠ none then 0 else arity) + base := by
  rw [leave, withLabels_stack, withStack_stack, List.length_append, bottom, pos, List.length_drop]
  split <;> simp [sized] <;> omega

theorem labelPos_eq (lty : LabelType) (notFunc : lty ≠ .func) {stack : List Value}
    (height : stack.length = base + decl.params.length) : labelPos lty stack decl = base := by
  rw [labelPos, if_neg notFunc]
  omega

/-- The start of a body that is validated in a frame of its own. -/
structure Entered (validation : ValidationContext I.Instr) (label : List ValType)
    (decl : BlockDeclaration) (body : List (Expr I.Instr)) (final : Operands) (base : Nat)
    (opened : BlockContext I.Op) : Prop where
  framed : Framed validation label decl body final
  matched : Matches opened (validation.withLabel label)
  there : ∃ block, opened.At block
  height : opened.stack.length = base + decl.params.length

theorem Entered.reachable {label : List ValType} {opened : BlockContext I.Op}
    (entered : Entered validation label decl body final base opened) : opened.insertPoint ≠ none := by
  obtain ⟨_, there⟩ := entered.there
  exact there.reachable

theorem Entered.standing {label : List ValType} {opened : BlockContext I.Op}
    (entered : Entered validation label decl body final base opened) :
    Standing base opened (Operands.live decl.params.reverse) where
  bottom := by
    rw [entered.height]
    exact Nat.le_add_right _ _
  live := fun _ => ⟨Operands.live_live _, by simpa using entered.height⟩

theorem startBlock_entered (framed : Framed validation decl.results decl body final)
    (here : context.At block) (matched : Matches context validation) (all : Convert decl.results types)
    (height : context.stack.length = base + decl.params.length) :
    Entered validation decl.results decl body final base (context.startBlock block decl types) where
  framed := framed
  matched := matched.push (by rfl) (by rfl) (exitLabel_sized _ _ _ all)
  there := ⟨_, startBlock_at _ _ here⟩
  height := height

theorem startLoop_entered (block : Nat) (framed : Framed validation decl.params decl body final)
    (matched : Matches context validation) (all : Convert decl.params.reverse types)
    (height : context.stack.length = base + decl.params.length) :
    Entered validation decl.params decl body final base (context.startLoop block decl types) where
  framed := framed
  matched := matched.push (by rfl) (by rfl) (loopLabel_sized _ _ all)
  there := ⟨_, startLoop_at _ _⟩
  height := by
    have count : types.length = decl.params.length := by simpa using all.length_eq.symm
    simp [startLoop, openLoop, branchToLoop, loopLabel, count]
    omega

theorem startThen_entered (block : Nat) (value : Value)
    (framed : Framed validation decl.results decl body final)
    (matched : Matches context validation) (all : Convert decl.results types) {rest : List Value}
    (height : rest.length = base + decl.params.length) :
    Entered validation decl.results decl body final base
      (context.startThen block value rest decl types) where
  framed := framed
  matched := matched.push (by rfl) (by rfl) (exitLabel_sized _ _ _ all)
  there := ⟨_, startThen_at _ _ _ _⟩
  height := height

/-- A first arm whose end cannot be reached leaves its results below the second one. -/
theorem startElse_entered {first : BlockContext I.Op} {value : Value} {rest : List Value}
    {other : List (Expr I.Instr)} (framed : Framed validation decl.results decl other final)
    (matched : Matches context validation) (all : Convert decl.results types)
    (run : Emits I (context.startThen block value rest decl types) body first)
    (height : rest.length = base + decl.params.length) (enough : base ≤ first.stack.length) :
    Entered validation decl.results decl other final
      (base + if first.insertPoint = none then decl.results.length else 0)
      (first.startElse (context.ifLabel block value rest decl types)
        (context.function.blocks.length + 1) (rest.take decl.params.length)) where
  framed := framed
  matched := by
    refine matched.push (startElse_blockStack run) ?_ (exitLabel_sized _ _ _ all)
    simp [startElse, run.locals, startThen, openLabel, branchToArms, compareZero]
  there := ⟨_, startElse_placed run⟩
  height := by
    have pos : (context.ifLabel block value rest decl types).pos = base :=
      labelPos_eq .if_ (by decide) height
    have sized : (context.ifLabel block value rest decl types).phis.length = decl.results.length :=
      exitLabel_sized _ _ _ all
    have left := leave_stack_length .if_ sized pos enough
    have count : (rest.take decl.params.length).length = decl.params.length := by
      rw [List.length_take]
      omega
    simp only [startElse, moveTo_stack, withStack_stack, List.length_append, left, count]
    by_cases nowhere : first.insertPoint = none <;> simp [nowhere] <;> omega

theorem leave_standing {label : BreakoutTarget} {results : List ValType} {below : Operands}
    {lty : LabelType} {exit : Nat} (notFirst : lty ≠ .if_)
    (sized : label.phis.length = results.length) (pos : label.pos = (base + below.types.length : Nat))
    (enough : base + below.types.length ≤ inner.stack.length) (live : below.Live) :
    Standing base ((inner.leave lty label).moveTo exit) (below.pushList results) := by
  have length : ((inner.leave lty label).moveTo exit).stack.length =
      results.length + (base + below.types.length) := by
    rw [moveTo_stack, leave_stack_length lty sized pos enough, if_neg (fun both => notFirst both.1)]
  refine ⟨by omega, fun _ => ⟨live.pushList _, ?_⟩⟩
  rw [length, Operands.pushList_types_length]
  omega

theorem leaveLoop_standing {below : Operands} {labels : List BreakoutTarget}
    (framed : Framed validation decl.params decl body final)
    (inside : Standing (base + below.types.length) inner final) (live : below.Live) :
    Standing base (inner.withLabels labels) (below.pushList decl.results) where
  bottom := Nat.le_trans (Nat.le_add_right _ _) inside.bottom
  live := by
    intro reached
    obtain ⟨frameLive, tall⟩ := inside.live reached
    have closed := frameLive.closeFrame framed.closed
    refine ⟨live.pushList _, ?_⟩
    rw [Operands.pushList_types_length, withLabels_stack]
    omega

end Frames

/-! ## What a body leaves alone -/

section Below

variable {low stack stack' stack'' : List Value} {base base' : Nat}

theorem suffix_drop (count : Nat) (suffix : low <:+ stack) (short : low.length + count ≤ stack.length) :
    low <:+ stack.drop count := by
  obtain ⟨front, rfl⟩ := suffix
  rw [List.length_append] at short
  rw [List.drop_append_of_le_length (by omega)]
  exact List.suffix_append _ _

theorem suffix_append_right (front : List Value) (suffix : low <:+ stack) : low <:+ front ++ stack :=
  suffix.trans (List.suffix_append _ _)

theorem bottom_eq {pos : Int} (suffix : low <:+ stack) (same : pos = low.length) :
    bottom pos stack = low := by
  obtain ⟨front, rfl⟩ := suffix
  simp [bottom, same]

/-- The values at the bottom of a stack, as many as `base`, are those of the other one. -/
def Keeps (base : Nat) (stack stack' : List Value) : Prop :=
  ∀ low : List Value, low.length = base → low <:+ stack → low <:+ stack'

theorem Keeps.refl : Keeps base stack stack :=
  fun _ _ suffix => suffix

theorem Keeps.trans (first : Keeps base stack stack') (second : Keeps base stack' stack'') :
    Keeps base stack stack'' :=
  fun low sized suffix => second low sized (first low sized suffix)

theorem Keeps.append (front : List Value) (keeps : Keeps base stack stack') :
    Keeps base stack (front ++ stack') :=
  fun low sized suffix => suffix_append_right front (keeps low sized suffix)

theorem Keeps.drop {count : Nat} (short : base + count ≤ stack.length) :
    Keeps base stack (stack.drop count) :=
  fun _ sized suffix => suffix_drop count suffix (by omega)

theorem Keeps.mono (keeps : Keeps base' stack stack') (less : base ≤ base')
    (short : base' ≤ stack.length) : Keeps base stack stack' := by
  intro low sized suffix
  have larger := keeps (stack.drop (stack.length - base')) (by rw [List.length_drop]; omega)
    (List.drop_suffix _ _)
  exact (suffix_drop _ suffix (by omega)).trans larger

end Below

theorem leave_stack {inner : BlockContext I.Op} {label : BreakoutTarget} {low : List Value}
    (lty : LabelType) (suffix : low <:+ inner.stack) (pos : label.pos = low.length) :
    (inner.leave lty label).stack =
      (if lty = .if_ ∧ inner.insertPoint ≠ none then [] else (label.phis.map PHINode.value).reverse) ++
        low := by
  rw [leave, withLabels_stack, withStack_stack, bottom_eq suffix pos]

theorem leave_keeps {inner : BlockContext I.Op} {label : BreakoutTarget} {stack : List Value}
    {base : Nat} (lty : LabelType) (keeps : Keeps base stack inner.stack) (pos : label.pos = base) :
    Keeps base stack (inner.leave lty label).stack := by
  intro low sized suffix
  rw [leave_stack lty (keeps low sized suffix) (by rw [pos, sized])]
  exact List.suffix_append _ _

section Keeps

variable {context next : BlockContext I.Op} {validation : ValidationContext I.Instr} {block : Nat}
  {operands after : Operands} {base : Nat}

/-- A step takes its operands from above the base. -/
theorem Step.keeps {expr : Expr I.Instr} (step : Step I context block expr next)
    (tracks : ∀ instr, expr = .instr instr → I.TracksAt validation.signature instr)
    (checked : checkExpr validation expr operands = some after) (live : operands.Live)
    (height : context.stack.length = base + operands.types.length) :
    Keeps base context.stack next.stack := by
  cases step with
  | @straight _ visit final code ran =>
      show Keeps base context.stack final.stack
      cases expr with
      | nop =>
          cases code
          obtain ⟨_, rfl⟩ := Prod.mk.inj (Except.ok.inj ran)
          exact .refl
      | drop =>
          cases code
          obtain ⟨type, popped⟩ := checkExpr_drop checked
          have length := (live.pop popped).length
          obtain ⟨value, rest, top, rfl⟩ := visitDrop_ok.mp ran
          have kept : Keeps base context.stack (context.stack.drop 1) := .drop (by omega)
          rwa [show context.stack.drop 1 = rest from congrArg (List.drop 1) top] at kept
      | select resultType =>
          cases code
          obtain ⟨below, pops, _, _⟩ := checkExpr_select live checked
          have length := pops.length
          obtain ⟨condition, right, left, rest, top, rfl⟩ := visitSelectExpr_ok.mp ran
          have kept : Keeps base context.stack (context.stack.drop 3) := .drop (by omega)
          rw [show context.stack.drop 3 = rest from congrArg (List.drop 3) top] at kept
          exact kept.append [_]
      | localGet index =>
          cases code
          obtain ⟨target, _, rfl⟩ := visitLocalGet_ok.mp ran
          exact Keeps.refl.append [_]
      | localSet index =>
          cases code
          obtain ⟨type, found, popped⟩ := checkExpr_localSet checked
          have length := (live.popExpect popped).length
          obtain ⟨value, rest, target, top, _, rfl⟩ := visitLocalSet_ok.mp ran
          have kept : Keeps base context.stack (context.stack.drop 1) := .drop (by omega)
          rwa [show context.stack.drop 1 = rest from congrArg (List.drop 1) top] at kept
      | localTee index =>
          cases code
          obtain ⟨value, rest, target, top, _, rfl⟩ := visitLocalTee_ok.mp ran
          exact .refl
      | instr instr =>
          cases code
          obtain ⟨type, rest, found, popped, rfl⟩ := checkExpr_instr checked
          have length := (live.popList popped).length
          have enough : type.params.length ≤ context.stack.length := by omega
          obtain ⟨results, stack, _⟩ := tracks instr rfl type found (visitStart context) final enough ran
          rw [stack]
          exact (Keeps.drop (by omega)).append results
      | _ => cases code
  | unreachable => exact .refl
  | br _ => exact .refl
  | return_ _ _ => exact .refl
  | brIf top _ =>
      obtain ⟨lower, _, _, popped, _⟩ := checkExpr_brIf checked
      have length := (live.popExpect popped).length
      have kept : Keeps base context.stack (context.stack.drop 1) := .drop (by omega)
      rwa [congrArg (List.drop 1) top] at kept
  | brTable top _ _ =>
      obtain ⟨lower, _, _, _, popped, _⟩ := checkExpr_brTable checked
      have length := (live.popExpect popped).length
      have kept : Keeps base context.stack (context.stack.drop 1) := .drop (by omega)
      rw [congrArg (List.drop 1) top] at kept
      rw [addTargets_stack]
      exact kept

end Keeps

/-! ## Runs -/

theorem Emits.heights {context final : BlockContext I.Op} {exprs : List (Expr I.Instr)}
    {validation : ValidationContext I.Instr} {operands after : Operands} {base : Nat} {holds : I.Instr → Bool}
    (emits : Emits I context exprs final) (matched : Matches context validation)
    (tracks : ∀ instr, holds instr → I.TracksAt validation.signature instr)
    (visited : ExprList.visitedAll holds exprs)
    (checked : checkExprs validation exprs operands = some after)
    (standing : Standing base context operands) :
    Standing base final after ∧ Keeps base context.stack final.stack := by
  induction emits generalizing validation operands after base with
  | nil =>
      obtain rfl : operands = after := by simpa [checkExprs] using checked
      exact ⟨standing, .refl⟩
  | skipped nowhere => exact ⟨⟨standing.bottom, fun reached => absurd nowhere reached⟩, .refl⟩
  | @step context next final block expr exprs here head tail ih =>
      obtain ⟨middle, first, rest⟩ := checkExprs_cons checked
      obtain ⟨live, height⟩ := standing.live here.reachable
      obtain ⟨visitedHead, visitedTail⟩ := visitedAll_cons visited
      have tracksHead : ∀ instr, expr = .instr instr → I.TracksAt validation.signature instr := by
        intro instr same
        rw [same] at visitedHead
        exact tracks instr visitedHead
      have standingHead := head.standing here tracksHead first standing
      have keptHead := head.keeps tracksHead first live height
      by_cases diverges : expr.diverges
      · have nowhere := head.nowhere_iff.mpr diverges
        rw [tail.eq_of_nowhere nowhere]
        exact ⟨⟨standingHead.bottom, fun reached => absurd nowhere reached⟩, keptHead⟩
      · obtain ⟨last, kept⟩ := ih (matched.same head.blockStack head.locals) tracks (visitedTail diverges) rest
          standingHead
        exact ⟨last, keptHead.trans kept⟩
  | @block context inner _ block decl _ _ types here all run closable tail ihRun ihTail =>
      obtain ⟨next, first, rest⟩ := checkExprs_cons checked
      obtain ⟨below, frame, popped, framed, rfl⟩ := checkExpr_block first
      obtain ⟨live, height⟩ := standing.live here.reachable
      have pops := live.popList popped
      have length := pops.length
      have entry : context.stack.length = base + below.types.length + decl.params.length := by omega
      have pos : (context.blockLabel decl types).pos = (base + below.types.length : Nat) :=
        labelPos_eq .block (by decide) entry
      have entered := startBlock_entered framed here matched all entry
      obtain ⟨visitedBody, visitedTail⟩ := visitedAll_cons visited
      obtain ⟨inside, keptInside⟩ := ihRun entered.matched tracks visitedBody framed.checked entered.standing
      obtain ⟨last, kept⟩ := ihTail (matched.same (by simp [leave, run.blockStack, startBlock, openLabel])
        (by simp [run.locals, startBlock, openLabel])) tracks (visitedTail Bool.false_ne_true) rest
        (leave_standing (by decide) (exitLabel_sized _ _ _ all) pos inside.bottom pops.live)
      have left := leave_keeps .block keptInside pos
      exact ⟨last, (left.mono (Nat.le_add_right _ _) (by rw [entered.height]; omega)).trans kept⟩
  | @loop context inner _ block decl body _ types here all enough run closable tail ihRun ihTail =>
      obtain ⟨next, first, rest⟩ := checkExprs_cons checked
      obtain ⟨below, frame, popped, framed, rfl⟩ := checkExpr_loop first
      obtain ⟨live, height⟩ := standing.live here.reachable
      have pops := live.popList popped
      have length := pops.length
      have entry : context.stack.length = base + below.types.length + decl.params.length := by omega
      have entered := startLoop_entered block framed matched all entry
      obtain ⟨visitedBody, visitedTail⟩ := visitedAll_cons visited
      obtain ⟨inside, keptInside⟩ := ihRun entered.matched tracks visitedBody framed.checked entered.standing
      have standingAfter : Standing base (inner.withLabels inner.blockStack.tail) (below.pushList decl.results) :=
        leaveLoop_standing framed inside pops.live
      have count : types.length = decl.params.length := by simpa using all.length_eq.symm
      have started : Keeps (base + below.types.length) context.stack
          (context.startLoop block decl types).stack :=
        (Keeps.drop (by omega)).append _
      have keptLoop : Keeps base context.stack inner.stack :=
        (started.trans keptInside).mono (Nat.le_add_right _ _) (by omega)
      by_cases diverges : ExprList.diverges body
      · have nowhere : (inner.withLabels inner.blockStack.tail).insertPoint = none :=
          run.nowhere_iff.mpr (.inr diverges)
        rw [tail.eq_of_nowhere nowhere]
        exact ⟨⟨standingAfter.bottom, fun reached => absurd nowhere reached⟩, keptLoop⟩
      · obtain ⟨last, kept⟩ := ihTail (matched.same
          (by simp [run.blockStack, startLoop, openLoop, branchToLoop])
          (by simp [run.locals, startLoop, openLoop, openParams, branchToLoop])) tracks (visitedTail diverges) rest
          standingAfter
        exact ⟨last, keptLoop.trans kept⟩
  | @if_ context first second _ block value rest decl _ _ _ types here top enough all runTrue
      closableTrue runFalse closableFalse tail ihTrue ihFalse ihTail =>
      obtain ⟨next, head, more⟩ := checkExprs_cons checked
      obtain ⟨condition, below, _, _, popTop, popped, framedTrue, framedFalse, rfl⟩ := checkExpr_if head
      obtain ⟨live, height⟩ := standing.live here.reachable
      have pops := live.popExpect popTop
      have popsAll := pops.live.popList popped
      have lengthTop := pops.length
      have length := popsAll.length
      rw [top, List.length_cons] at height
      have entry : rest.length = base + below.types.length + decl.params.length := by omega
      have pos : (context.ifLabel block value rest decl types).pos = (base + below.types.length : Nat) :=
        labelPos_eq .if_ (by decide) entry
      have enteredTrue := startThen_entered block value framedTrue matched all entry
      obtain ⟨visitedArms, visitedTail⟩ := visitedAll_cons visited
      obtain ⟨visitedTrue, visitedFalse⟩ := Bool.and_eq_true_iff.mp visitedArms
      obtain ⟨insideTrue, keptTrue⟩ := ihTrue enteredTrue.matched tracks visitedTrue framedTrue.checked
        enteredTrue.standing
      have enteredFalse := startElse_entered framedFalse matched all runTrue entry insideTrue.bottom
      obtain ⟨insideFalse, keptFalse⟩ := ihFalse enteredFalse.matched tracks visitedFalse framedFalse.checked
        enteredFalse.standing
      obtain ⟨last, kept⟩ := ihTail (matched.same
        (by simp [leave, runFalse.blockStack, startElse_blockStack runTrue])
        (by simp [runFalse.locals, startElse, runTrue.locals, startThen, openLabel, branchToArms,
          compareZero])) tracks (visitedTail Bool.false_ne_true) more
        (leave_standing (by decide) (exitLabel_sized _ _ _ all) pos
          (Nat.le_trans (Nat.le_add_right _ _) insideFalse.bottom) popsAll.live)
      have started : Keeps (base + below.types.length) rest (first.startElse
          (context.ifLabel block value rest decl types) (context.function.blocks.length + 1)
            (rest.take decl.params.length)).stack :=
        (leave_keeps .if_ keptTrue pos).append _
      have arms := started.trans (keptFalse.mono (Nat.le_add_right _ _)
        (by rw [enteredFalse.height]; exact Nat.le_add_right _ _))
      have left := (leave_keeps .else_ arms pos).mono (Nat.le_add_right base _) (by omega)
      have whole : Keeps base context.stack rest := by
        have dropped : Keeps base context.stack (context.stack.drop 1) :=
          .drop (by rw [top, List.length_cons]; omega)
        rwa [top] at dropped ⊢
      exact ⟨last, (whole.trans left).trans kept⟩

/-- Every run of validated code keeps to the heights of validation. -/
theorem Emits.standing {context final : BlockContext I.Op} {exprs : List (Expr I.Instr)}
    {validation : ValidationContext I.Instr} {operands after : Operands} {base : Nat}
    (emits : Emits I context exprs final) (matched : Matches context validation)
    (tracks : I.Tracks validation.signature)
    (checked : checkExprs validation exprs operands = some after)
    (standing : Standing base context operands) : Standing base final after :=
  (emits.heights matched (fun instr _ => tracks instr) (ExprList.visitedAll_true exprs) checked standing).1

/-- A run of validated code leaves what is below its operands alone. -/
theorem Emits.keeps {context final : BlockContext I.Op} {exprs : List (Expr I.Instr)}
    {validation : ValidationContext I.Instr} {operands after : Operands} {base : Nat}
    (emits : Emits I context exprs final) (matched : Matches context validation)
    (tracks : I.Tracks validation.signature)
    (checked : checkExprs validation exprs operands = some after)
    (standing : Standing base context operands) : Keeps base context.stack final.stack :=
  (emits.heights matched (fun instr _ => tracks instr) (ExprList.visitedAll_true exprs) checked standing).2

end WasmToLlvm.Block
