import WasmToLlvm.Block.Places
import WasmToLlvm.Block.Success

/-!
# Dead code

Code behind an unconditional transfer has no influence on the translation of a function.
-/

set_option autoImplicit false

namespace WasmToLlvm.Wasm

/-! ## Functions without dead code -/

mutual

def Expr.prune {Instr : Type} : Expr Instr → Expr Instr
  | .block decl exprs => .block decl (ExprList.prune exprs)
  | .loop decl exprs => .loop decl (ExprList.prune exprs)
  | .if_ decl trueExprs falseExprs => .if_ decl (ExprList.prune trueExprs) (ExprList.prune falseExprs)
  | .br depth => .br depth
  | .brIf depth => .brIf depth
  | .brTable targets default => .brTable targets default
  | .return_ => .return_
  | .unreachable => .unreachable
  | .nop => .nop
  | .drop => .drop
  | .select resultType => .select resultType
  | .localGet index => .localGet index
  | .localSet index => .localSet index
  | .localTee index => .localTee index
  | .instr instr => .instr instr

/-- The expressions up to the first one that is never left. -/
def ExprList.prune {Instr : Type} : List (Expr Instr) → List (Expr Instr)
  | [] => []
  | expr :: exprs => Expr.prune expr :: if Expr.diverges expr then [] else ExprList.prune exprs

end

def Func.prune {Instr : Type} (func : Func Instr) : Func Instr :=
  { func with exprs := ExprList.prune func.exprs }

end WasmToLlvm.Wasm

namespace WasmToLlvm.Block

open Llvm Wasm Library

/-! ## Unreachable ends -/

/-- A successful run ends at an unreachable place. -/
structure EndsNowhere {Op α : Type} (context : BlockContext Op) (emit : Build Op α) : Prop where
  run : ∀ {value : α} {after : BlockContext Op}, emit context = .ok (value, after) → after.insertPoint = none

section Ends

variable {Op α β : Type} {context : BlockContext Op} {emit other : Build Op α} {next : α → Build Op β}

namespace EndsNowhere

/-- The rest of a sequence decides where it ends. -/
theorem after (rest : ∀ value middle, EndsNowhere middle (next value)) : EndsNowhere context (emit >>= next) where
  run ran := by
    obtain ⟨first, middle, _, ranRest⟩ := bind_ok.mp ran
    exact (rest first middle).run ranRest

/-- What is unreachable stays so. -/
theorem bind (first : EndsNowhere context emit)
    (rest : ∀ value middle, middle.insertPoint = none → EndsNowhere middle (next value)) :
    EndsNowhere context (emit >>= next) where
  run ran := by
    obtain ⟨value, middle, ranFirst, ranRest⟩ := bind_ok.mp ran
    exact (rest value middle (first.run ranFirst)).run ranRest

theorem pure (nowhere : context.insertPoint = none) (value : α) : EndsNowhere context (pure value : Build Op α) where
  run ran := by
    cases ran
    exact nowhere

theorem throw (error : Abort) : EndsNowhere context (throw error : Build Op α) where
  run ran := by cases ran

theorem get {next : BlockContext Op → Build Op β} (rest : EndsNowhere context (next context)) :
    EndsNowhere context (get >>= next) :=
  ⟨rest.run⟩

theorem modify {update : BlockContext Op → BlockContext Op} (nowhere : (update context).insertPoint = none) :
    EndsNowhere context (modify update : Build Op PUnit) where
  run ran := by
    cases ran
    exact nowhere

theorem ite {condition : Prop} [Decidable condition] (first : condition → EndsNowhere context emit)
    (second : ¬condition → EndsNowhere context other) : EndsNowhere context (if condition then emit else other) := by
  split
  · exact first ‹_›
  · exact second ‹_›

end EndsNowhere

theorem clearInsertionPoint_ends : EndsNowhere context clearInsertionPoint := .modify rfl

/-- A branch behind which nothing is reached. -/
theorem visitBr_ends {kind : BrKind} {index : Nat} {condition : Option Value} :
    EndsNowhere context (visitBr kind index condition none) := by
  have cleared : ∀ {context : BlockContext Op} (ret : Nat), EndsNowhere context (do
      clearInsertionPoint
      return ret) := fun ret => clearInsertionPoint_ends.bind fun _ _ nowhere => .pure nowhere ret
  unfold visitBr
  refine .after fun label _ => .ite (fun _ => .throw _) fun _ => .after fun _ _ => .ite (fun _ => .throw _) fun _ =>
    .after fun _ _ => .after fun _ _ => ?_
  unfold createBranch
  cases condition with
  | none => exact .ite (fun _ => .throw _) fun _ => .after fun ret _ => cleared ret
  | some condition => exact .ite (fun _ => .throw _) fun _ => .after fun ret _ => cleared ret

theorem addIncomings_ends {phis : List PHINode} {stack : List Value} {block : Option Nat}
    (nowhere : context.insertPoint = none) : EndsNowhere context (addIncomings phis stack block) := by
  unfold addIncomings
  generalize phis.reverse.zip stack = entries
  induction entries generalizing context with
  | nil => exact .pure nowhere _
  | cons entry entries ih => exact (EndsNowhere.modify nowhere).bind fun _ _ nowhere => ih nowhere

theorem labelIndex_ends {depth : Nat} {error : Abort} (nowhere : context.insertPoint = none) :
    EndsNowhere context (labelIndex depth error) := by
  unfold labelIndex
  exact .get (.ite (fun _ => .throw _) fun _ => .pure nowhere _)

theorem labelAt_ends {index : Nat} (nowhere : context.insertPoint = none) : EndsNowhere context (labelAt index) := by
  unfold labelAt
  refine .get ?_
  split
  · exact .pure nowhere _
  · exact .throw _

theorem visitTargets_ends {switch i : Nat} {source : Option Nat} {depths : List Nat}
    (nowhere : context.insertPoint = none) : EndsNowhere context (visitTargets switch source depths i) := by
  induction depths generalizing context i with
  | nil => exact .pure nowhere _
  | cons depth depths ih =>
      unfold visitTargets
      refine (labelIndex_ends nowhere).bind fun index _ nowhere => (labelAt_ends nowhere).bind fun label _ nowhere => ?_
      refine (EndsNowhere.modify nowhere).bind fun _ middle nowhere => .get (.ite (fun _ => .throw _) fun _ => ?_)
      refine (addIncomings_ends nowhere).bind fun _ last nowhere => ?_
      refine EndsNowhere.bind (.modify ?_) fun _ _ nowhere => ih nowhere
      cases source with
      | none => exact nowhere
      | some source => exact nowhere

/-- A loop is not left at its end. -/
theorem leaveLoop_ends {exit : Nat} {decl : BlockDeclaration} {stackPos : Int} {phis : List PHINode}
    (nowhere : context.insertPoint = none) : EndsNowhere context (leaveBlock .loop exit decl stackPos phis) := by
  unfold leaveBlock
  refine (EndsNowhere.modify nowhere).bind fun _ middle nowhere => .get ?_
  rw [BlockContext.getInsertBlock, nowhere]
  exact .pure nowhere _

end Ends

/-! ## Expressions that are never left -/

section Diverges

variable {I : InstructionSet}

/-- Nothing is visited at an unreachable place. -/
theorem skipped_ends {exit : Nat} {entry : Option Nat} {context : BlockContext I.Op} {exprs : List (Expr I.Instr)}
    (nowhere : context.insertPoint = none) : EndsNowhere context (visitControlInsts I exit exprs entry) where
  run ran := by
    cases (visitControlInsts_skipped nowhere).symm.trans ran
    exact nowhere

mutual

theorem visitExpr_ends {entry : Option Nat} {exit : Nat} {context : BlockContext I.Op} (expr : Expr I.Instr)
    (diverges : expr.diverges = true) : EndsNowhere context (visitExpr I entry exit expr) := by
  cases expr with
  | loop decl exprs =>
      rw [visitExpr_loop_eq]
      refine .after fun begun middle => ?_
      refine (visitControlInsts_ends exprs diverges).bind fun _ _ nowhere => ?_
      exact (leaveLoop_ends nowhere).bind fun _ _ nowhere => .get (.pure nowhere _)
  | br depth =>
      simp only [visitExpr]
      exact .after fun index _ => visitBr_ends.bind fun _ _ nowhere => .pure nowhere _
  | brTable targets default =>
      simp only [visitExpr]
      refine .after fun condition _ => .after fun index _ => .after fun _ _ => visitBr_ends.bind fun switch _ nowhere => ?_
      exact (visitTargets_ends nowhere).bind fun _ _ nowhere => .pure nowhere _
  | return_ =>
      simp only [visitExpr]
      exact visitBr_ends.bind fun _ _ nowhere => .pure nowhere _
  | unreachable =>
      simp only [visitExpr, dispatchExprs]
      exact EndsNowhere.bind (.after fun _ _ => clearInsertionPoint_ends) fun _ _ nowhere => .pure nowhere _
  | block decl exprs => cases diverges
  | if_ decl trueExprs falseExprs => cases diverges
  | brIf depth => cases diverges
  | nop => cases diverges
  | drop => cases diverges
  | select resultType => cases diverges
  | localGet index => cases diverges
  | localSet index => cases diverges
  | localTee index => cases diverges
  | instr instr => cases diverges

theorem visitControlInsts_ends {exit : Nat} {entry : Option Nat} {context : BlockContext I.Op}
    (exprs : List (Expr I.Instr)) (diverges : ExprList.diverges exprs = true) :
    EndsNowhere context (visitControlInsts I exit exprs entry) := by
  cases exprs with
  | nil => cases diverges
  | cons expr exprs =>
      cases nowhere : context.insertPoint with
      | none => exact skipped_ends nowhere
      | some place =>
          unfold visitControlInsts
          refine .get ?_
          rw [BlockContext.getInsertBlock, nowhere]
          cases first : Expr.diverges expr with
          | true => exact (visitExpr_ends expr first).bind fun _ _ nowhere => skipped_ends nowhere
          | false =>
              rw [ExprList.diverges, first, Bool.false_or] at diverges
              exact .after fun _ _ => visitControlInsts_ends exprs diverges

end

end Diverges

/-! ## Pruning -/

section Prune

variable {I : InstructionSet} {entry : Option Nat} {exit : Nat}

/-- A rest that is never reached. -/
theorem bind_skipped {context : BlockContext I.Op} {visit : Build I.Op (Option Nat)} (exprs : List (Expr I.Instr))
    (ends : EndsNowhere context visit) :
    (visit >>= fun entry => visitControlInsts I exit exprs entry) context =
      (visit >>= fun entry => visitControlInsts I exit [] entry) context := by
  cases ran : visit context with
  | error error => rw [bind_run_error ran, bind_run_error ran]
  | ok result =>
      obtain ⟨entry, after⟩ := result
      rw [bind_run_ok ran, bind_run_ok ran, visitControlInsts_skipped (ends.run ran),
        visitControlInsts_skipped (ends.run ran)]

mutual

theorem visitExpr_prune (entry : Option Nat) (exit : Nat) (expr : Expr I.Instr) :
    visitExpr I entry exit expr.prune = visitExpr I entry exit expr := by
  cases expr with
  | block decl exprs =>
      rw [Expr.prune, visitExpr_block_eq, visitExpr_block_eq]
      simp only [visitControlInsts_prune]
  | loop decl exprs =>
      rw [Expr.prune, visitExpr_loop_eq, visitExpr_loop_eq]
      simp only [visitControlInsts_prune]
  | if_ decl trueExprs falseExprs =>
      rw [Expr.prune, visitExpr_if_eq, visitExpr_if_eq, beginElse, beginElse]
      simp only [visitControlInsts_prune]
  | br depth => rfl
  | brIf depth => rfl
  | brTable targets default => rfl
  | return_ => rfl
  | unreachable => rfl
  | nop => rfl
  | drop => rfl
  | select resultType => rfl
  | localGet index => rfl
  | localSet index => rfl
  | localTee index => rfl
  | instr instr => rfl

theorem visitControlInsts_prune (exit : Nat) (exprs : List (Expr I.Instr)) (entry : Option Nat) :
    visitControlInsts I exit (ExprList.prune exprs) entry = visitControlInsts I exit exprs entry := by
  cases exprs with
  | nil => rfl
  | cons expr exprs =>
      refine funext fun context => ?_
      rw [ExprList.prune]
      cases nowhere : context.insertPoint with
      | none => rw [visitControlInsts_skipped nowhere, visitControlInsts_skipped nowhere]
      | some place =>
          simp only [visitControlInsts, get_bind_run, BlockContext.getInsertBlock, nowhere, Option.map_some]
          rw [visitExpr_prune entry exit expr]
          cases diverges : Expr.diverges expr with
          | true =>
              rw [if_pos rfl]
              exact (bind_skipped exprs (visitExpr_ends expr diverges)).symm
          | false =>
              rw [if_neg Bool.false_ne_true]
              simp only [visitControlInsts_prune]

end

/-- Code behind an unconditional transfer does not influence the translation, whether it
completes or fails. -/
theorem visitFunc_prune (I : InstructionSet) (func : Func I.Instr) : visitFunc I func.prune = visitFunc I func := by
  have body : visitFuncBody I func.prune = visitFuncBody I func := by
    rw [visitFuncBody_eq, visitFuncBody_eq]
    simp only [Func.prune, visitControlInsts_prune]
    rfl
  rw [visitFunc, visitFunc, body]

end Prune

end WasmToLlvm.Block
