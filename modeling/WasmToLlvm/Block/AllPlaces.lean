import WasmToLlvm.Block.LabelStack

/-!
# Properties of all places

A property holds at every expression that is visited in a body if it holds at the first
one, inside it and behind it.
-/

set_option autoImplicit false

namespace WasmToLlvm.Block

open Llvm Wasm Library BlockContext

variable {I : InstructionSet}

/-! ## Runs are determined -/

section Unique

variable {context final final' : BlockContext I.Op} {exprs : List (Expr I.Instr)} {block : Nat}

theorem Convert.unique {types : List ValType} {converted converted' : List Ty} (all : Convert types converted)
    (all' : Convert types converted') : converted = converted' :=
  List.right_unique_forall₂' (fun _ _ _ first second => Option.some.inj (first.symm.trans second)) all all'

theorem Emits.unique (emits : Emits I context exprs final) (emits' : Emits I context exprs final')
    (here : context.At block) : final = final' := by
  have synced : Synced context (some block) := .inr ⟨block, here, rfl⟩
  have first := (visitControlInsts_ok exprs 0 _ _ _ synced).mpr emits
  have second := (visitControlInsts_ok exprs 0 _ _ _ synced).mpr emits'
  exact (Prod.mk.inj (Except.ok.inj (first.symm.trans second))).2

end Unique

/-! ## Places -/

/-- A property holds at all expressions that are visited in a body. -/
def AllPlaces (holds : Place I → Prop) (context : BlockContext I.Op) (exprs : List (Expr I.Instr))
    (frames : List Frame) : Prop :=
  ∀ entry exit place, Synced context entry → Visits I context entry exit exprs frames place → holds place

section AllPlaces

variable {holds holds' : Place I → Prop} {context next : BlockContext I.Op} {expr : Expr I.Instr}
  {exprs : List (Expr I.Instr)} {frames : List Frame} {block : Nat} {place : Place I}

theorem AllPlaces.mono (all : AllPlaces holds context exprs frames) (weaker : ∀ place, holds place → holds' place) :
    AllPlaces holds' context exprs frames :=
  fun entry exit place synced visits => weaker place (all entry exit place synced visits)

theorem allPlaces_nil : AllPlaces holds context [] frames := by
  intro entry exit place _ visits
  cases visits

theorem allPlaces_skipped (nowhere : context.insertPoint = none) : AllPlaces holds context exprs frames := by
  intro entry exit place _ visits
  have unreachable : context.getInsertBlock = none := by simp [getInsertBlock, nowhere]
  cases visits <;> contradiction

/-- Behind an expression the rest of the body is visited from where it ends. -/
theorem AllPlaces.behind (rest : AllPlaces holds next exprs frames) (here : context.At block)
    (emits : Emits I context [expr] next) {last : BlockContext I.Op} {entry : Option Nat} {exit exit' : Nat}
    (ran : visitExpr I (some block) exit expr context = .ok (entry, last))
    (visits : Visits I last entry exit' exprs frames place) : holds place := by
  obtain ⟨emits', synced⟩ := visitExpr_emits here ran
  obtain rfl := emits.unique emits' here
  exact rest entry exit' place synced visits

theorem synced_here {entry : Option Nat} (synced : Synced context entry) (here : context.At block) :
    entry = some block := by
  obtain ⟨_, there, rfl⟩ := synced.resolve_left here.reachable
  rw [there.unique here]

theorem allPlaces_step (here : context.At block) (step : Step I context block expr next)
    (first : ∀ exit, holds ⟨context, some block, exit, expr, frames⟩)
    (rest : AllPlaces holds next exprs frames) :
    AllPlaces holds context (expr :: exprs) frames := by
  intro entry exit place synced visits
  obtain rfl := synced_here synced here
  cases visits with
  | here _ => exact first exit
  | behind _ ran visits => exact rest.behind here (.step here step .nil) ran visits
  | block _ _ _ => exact absurd step nofun
  | loop _ _ _ => exact absurd step nofun
  | then_ _ _ _ => exact absurd step nofun
  | else_ _ _ _ => exact absurd step nofun

section Constructs

variable {inner firstArm secondArm : BlockContext I.Op} {decl : BlockDeclaration} {types : List Ty} {value : Value}
  {below : List Value} {body other : List (Expr I.Instr)}

theorem allPlaces_block (here : context.At block) (all : Convert decl.results types)
    (emits : Emits I (context.startBlock block decl types) body inner)
    (closable : Closable inner (context.blockLabel decl types).pos decl.results.length)
    (first : ∀ exit, holds ⟨context, some block, exit, .block decl body, frames⟩)
    (inside : AllPlaces holds (context.startBlock block decl types) body
      (⟨.block, decl, context.function.blocks.length, context.stack.length - decl.params.length⟩ :: frames))
    (rest : AllPlaces holds
      ((inner.leave .block (context.blockLabel decl types)).moveTo context.function.blocks.length) exprs frames) :
    AllPlaces holds context (.block decl body :: exprs) frames := by
  intro entry exit place synced visits
  obtain rfl := synced_here synced here
  cases visits with
  | here _ => exact first exit
  | behind _ ran visits => exact rest.behind here (.block here all emits closable .nil) ran visits
  | block _ opened visits =>
      obtain ⟨rfl, types', all', rfl⟩ := beginBlock_starts opened
      obtain rfl := Convert.unique all all'
      exact inside _ _ _ (.inr ⟨_, startBlock_at decl types here, rfl⟩) visits

theorem allPlaces_loop (here : context.At block) (all : Convert decl.params.reverse types)
    (enough : decl.params.length ≤ context.stack.length)
    (emits : Emits I (context.startLoop block decl types) body inner)
    (closable : inner.insertPoint ≠ none →
      (inner.stack.length : Int) = labelPos .loop context.stack decl + decl.results.length ∧
        decl.params.length ≤ inner.stack.length)
    (first : ∀ exit, holds ⟨context, some block, exit, .loop decl body, frames⟩)
    (inside : AllPlaces holds (context.startLoop block decl types) body
      (⟨.loop, decl, context.function.blocks.length, context.stack.length - decl.params.length⟩ :: frames))
    (rest : AllPlaces holds (inner.withLabels inner.blockStack.tail) exprs frames) :
    AllPlaces holds context (.loop decl body :: exprs) frames := by
  intro entry exit place synced visits
  obtain rfl := synced_here synced here
  cases visits with
  | here _ => exact first exit
  | behind _ ran visits => exact rest.behind here (.loop here all enough emits closable .nil) ran visits
  | loop _ opened visits =>
      obtain ⟨rfl, types', all', _, rfl⟩ := beginLoop_starts here opened
      obtain rfl := Convert.unique all all'
      exact inside _ _ _ (.inr ⟨_, startLoop_at decl types, rfl⟩) visits

theorem allPlaces_if (here : context.At block) (top : context.stack = value :: below)
    (enough : decl.params.length ≤ below.length) (all : Convert decl.results types)
    (emitsTrue : Emits I (context.startThen block value below decl types) body firstArm)
    (closableTrue : Closable firstArm (context.ifLabel block value below decl types).pos decl.results.length)
    (emitsFalse : Emits I (firstArm.startElse (context.ifLabel block value below decl types)
      (context.function.blocks.length + 1) (below.take decl.params.length)) other secondArm)
    (closableFalse : Closable secondArm (context.ifLabel block value below decl types).pos decl.results.length)
    (first : ∀ exit, holds ⟨context, some block, exit, .if_ decl body other, frames⟩)
    (insideTrue : AllPlaces holds (context.startThen block value below decl types) body
      (⟨.if_, decl, context.function.blocks.length + 2, context.stack.length - 1 - decl.params.length⟩ :: frames))
    (insideFalse : AllPlaces holds
      (firstArm.startElse (context.ifLabel block value below decl types) (context.function.blocks.length + 1)
        (below.take decl.params.length)) other
      (⟨.if_, decl, context.function.blocks.length + 2, context.stack.length - 1 - decl.params.length⟩ :: frames))
    (rest : AllPlaces holds
      ((secondArm.leave .else_ (context.ifLabel block value below decl types)).moveTo
        (context.function.blocks.length + 2)) exprs frames) :
    AllPlaces holds context (.if_ decl body other :: exprs) frames := by
  intro entry exit place synced visits
  obtain rfl := synced_here synced here
  cases visits with
  | here _ => exact first exit
  | behind _ ran visits =>
      exact rest.behind here (.if_ here top enough all emitsTrue closableTrue emitsFalse closableFalse .nil) ran visits
  | then_ _ opened visits =>
      obtain ⟨value', below', types', starts, _, _, rfl⟩ := beginThen_starts here opened
      obtain rfl := starts.arms
      obtain ⟨rfl, rfl⟩ := List.cons.inj (top.symm.trans starts.top)
      obtain rfl := Convert.unique all starts.all
      exact insideTrue _ _ _ (.inr ⟨_, startThen_at decl types value below, rfl⟩) visits
  | else_ _ opened visits =>
      obtain ⟨value', below', types', last, starts, emits, _, rfl⟩ := beginElse_starts here opened
      obtain rfl := starts.arms
      obtain ⟨rfl, rfl⟩ := List.cons.inj (top.symm.trans starts.top)
      obtain rfl := Convert.unique all starts.all
      obtain rfl := emitsTrue.unique emits (startThen_at decl types value below)
      exact insideFalse _ _ _ (.inr ⟨_, startElse_placed emitsTrue, rfl⟩) visits

end Constructs

end AllPlaces

end WasmToLlvm.Block
