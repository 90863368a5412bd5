import WasmToLlvm.Block.Runs

/-!
# Successful runs

The translation of a body, and of a function, succeeds exactly when there is a
run in the sense of `Emits`, and with its result.
-/

set_option autoImplicit false

namespace WasmToLlvm.Block

open Llvm Wasm Library BlockContext

variable {I : InstructionSet}

-- the equations of the mutual recursion are generated here, once for all proofs
attribute [local simp] visitExpr visitControlInsts

/-! ## Expressions without a body -/

theorem dispatchExprs_ok {context final : BlockContext I.Op} {block : Nat} {expr : Expr I.Instr}
    {visit : Visit I.Op Unit} (here : context.At block) (code : straightVisit I expr = some visit) :
    dispatchExprs I expr context = .ok ((), final) ↔
      ∃ after, visit (visitStart context) = .ok ((), after) ∧
        final = context.afterVisit block after := by
  have same : dispatchExprs I expr context = straight visit context := by
    cases expr with
    | nop | select | localGet | localSet | localTee | instr =>
        cases code
        rfl
    | drop =>
        cases code
        obtain ⟨_, _, _, _, stack, _⟩ := context
        cases stack <;> rfl
    | _ => cases code
  rw [same]
  exact straight_ok here

theorem visitExpr_straight {exit : Nat} {entry : Option Nat} {expr : Expr I.Instr}
    {visit : Visit I.Op Unit} (code : straightVisit I expr = some visit) :
    visitExpr I entry exit expr = (do
      dispatchExprs I expr
      return entry) := by
  cases expr with
  | nop | drop | select | localGet | localSet | localTee | instr => simp only [visitExpr]
  | _ => cases code

theorem createICmpNE_compareZero {context : BlockContext I.Op} {block : Nat}
    (here : context.At block) (value : Value) (rest : List Value) :
    createICmpNE value (context.withStack rest) =
      .ok (context.compared value, context.compareZero block value rest) :=
  createICmpNE_run (here.withStack rest) value

theorem compareZero_blocks (context : BlockContext I.Op) (block : Nat) (value : Value)
    (rest : List Value) :
    (context.compareZero block value rest).function.blocks.length =
      context.function.blocks.length := by
  simp [compareZero]

theorem compareZero_at {Op : Type} {context : BlockContext Op} {block : Nat}
    (here : context.At block) (value : Value) (rest : List Value) :
    (context.compareZero block value rest).At block :=
  emitAll_at _ (here.withStack rest).bound

section Visits

variable {exit block depth : Nat} {entry : Option Nat} {context final : BlockContext I.Op}

theorem visitExpr_straight_ok {expr : Expr I.Instr} {visit : Visit I.Op Unit}
    (here : context.At block) (code : straightVisit I expr = some visit) :
    visitExpr I (some block) exit expr context = .ok (entry, final) ↔
      entry = some block ∧ ∃ after, visit (visitStart context) = .ok ((), after) ∧
        final = context.afterVisit block after := by
  rw [visitExpr_straight code, bind_ok]
  simp only [dispatchExprs_ok here code, pure_run, Except.ok.injEq, Prod.mk.injEq]
  constructor
  · rintro ⟨_, _, ⟨after, ran, rfl⟩, rfl, rfl⟩
    exact ⟨rfl, after, ran, rfl⟩
  · rintro ⟨rfl, after, ran, rfl⟩
    exact ⟨(), _, ⟨after, ran, rfl⟩, rfl, rfl⟩

theorem visitExpr_unreachable (here : context.At block) :
    visitExpr I (some block) exit .unreachable context =
      .ok (some block, (context.emit block .unreachable).clear) := by
  simp only [visitExpr, dispatchExprs]
  rw [bind_run_ok (bind_run_ok (insert_run here _))]
  rfl

theorem visitExpr_br_ok (here : context.At block) :
    visitExpr I (some block) exit (.br depth) context = .ok (entry, final) ↔
      entry = some block ∧ ∃ label, Branches context depth label ∧
        final = ((context.branchTo block label).emit block (.br label.target)).clear := by
  rw [visitExpr, labelIndex_bind_ok]
  constructor
  · rintro ⟨deep, ran⟩
    obtain ⟨ret, middle, branch, ran⟩ := bind_ok.mp ran
    obtain ⟨label, branches, created⟩ := (visitBr_ok here deep).mp branch
    rw [createBranch_br (here.branchTo label) (.inl rfl)] at created
    cases created
    cases ran
    exact ⟨rfl, label, branches, rfl⟩
  · rintro ⟨rfl, label, branches, rfl⟩
    have deep := (List.getElem?_eq_some_iff.mp branches.found).1
    refine ⟨deep, ?_⟩
    rw [bind_run_ok ((visitBr_ok here deep).mpr
      ⟨label, branches, createBranch_br (here.branchTo label) (.inl rfl)⟩)]
    rfl

theorem visitExpr_return_ok (here : context.At block) :
    visitExpr I (some block) exit .return_ context = .ok (entry, final) ↔
      entry = some block ∧ ∃ depth label, depth + 1 = context.blockStack.length ∧
        Branches context depth label ∧
        final = ((context.branchTo block label).emit block (.br label.target)).clear := by
  rw [visitExpr]
  constructor
  · intro ran
    obtain ⟨ret, middle, branch, ran⟩ := bind_ok.mp ran
    have nonempty : 0 < context.blockStack.length := by
      rw [visitBr, labelAt_bind_ok] at branch
      obtain ⟨_, found, _⟩ := branch
      simpa using (List.getElem?_eq_some_iff.mp found).1
    have deep : context.blockStack.length - 1 < context.blockStack.length := by omega
    have first : context.blockStack.length - (context.blockStack.length - 1 + 1) = 0 := by omega
    rw [← first] at branch
    obtain ⟨label, branches, created⟩ := (visitBr_ok here deep).mp branch
    rw [createBranch_br (here.branchTo label) (.inr rfl)] at created
    cases created
    cases ran
    exact ⟨rfl, _, label, by omega, branches, rfl⟩
  · rintro ⟨rfl, depth, label, last, branches, rfl⟩
    have first : context.blockStack.length - (depth + 1) = 0 := by omega
    rw [← first, bind_run_ok ((visitBr_ok here (by omega)).mpr
      ⟨label, branches, createBranch_br (here.branchTo label) (.inr rfl)⟩)]
    rfl

theorem visitExpr_brIf_ok (here : context.At block) :
    visitExpr I (some block) exit (.brIf depth) context = .ok (entry, final) ↔
      entry = some context.function.blocks.length ∧ ∃ value rest label,
        context.stack = value :: rest ∧ Branches (context.withStack rest) depth label ∧
        final = context.branchOrNext block value rest label := by
  have inside : ∀ value rest,
      ((context.compareZero block value rest).newBlock "brif_next").At block :=
    fun value rest => (compareZero_at here value rest).newBlock _
  rw [visitExpr, popStack_bind_ok]
  constructor
  · rintro ⟨value, rest, top, ran⟩
    rw [bind_run_ok (createICmpNE_compareZero here value rest), bind_run_ok (createBlock_run _ _),
      labelIndex_bind_ok] at ran
    obtain ⟨deep, ran⟩ := ran
    obtain ⟨ret, middle, branch, ran⟩ := bind_ok.mp ran
    obtain ⟨label, branches, created⟩ := (visitBr_ok (inside value rest) deep).mp branch
    rw [createBranch_brIf ((inside value rest).branchTo label)] at created
    cases created
    rw [bind_run_ok (setInsertPoint_run _ _)] at ran
    cases ran
    rw [compareZero_blocks]
    exact ⟨rfl, value, rest, label, top,
      ⟨⟨branches.found, branches.enough⟩, branches.outermost⟩, rfl⟩
  · rintro ⟨rfl, value, rest, label, top, branches, rfl⟩
    have deep := (List.getElem?_eq_some_iff.mp branches.found).1
    refine ⟨value, rest, top, ?_⟩
    rw [bind_run_ok (createICmpNE_compareZero here value rest), bind_run_ok (createBlock_run _ _),
      labelIndex_bind_ok]
    refine ⟨deep, ?_⟩
    have branch : visitBr .brIf _ (some (context.compared value))
        (some (context.compareZero block value rest).function.blocks.length)
        ((context.compareZero block value rest).newBlock "brif_next") = _ :=
      (visitBr_ok (inside value rest) deep).mpr
      ⟨label, ⟨⟨branches.found, branches.enough⟩, branches.outermost⟩,
        createBranch_brIf ((inside value rest).branchTo label)⟩
    rw [bind_run_ok branch, bind_run_ok (setInsertPoint_run _ _), compareZero_blocks]
    rfl

theorem visitExpr_brTable_ok {targets : List Nat} {default : Nat} (here : context.At block) :
    visitExpr I (some block) exit (.brTable targets default) context = .ok (entry, final) ↔
      entry = some block ∧ ∃ value rest label labels, context.stack = value :: rest ∧
        Branches (context.withStack rest) default label ∧
        List.Forall₂ (Reaches (context.withStack rest)) targets labels ∧
        final = (context.startTable block value rest label).addTargets
          context.function.insts.length block labels 0 := by
  rw [visitExpr, popStack_bind_ok]
  constructor
  · rintro ⟨value, rest, top, ran⟩
    rw [labelIndex_bind_ok] at ran
    obtain ⟨deep, ran⟩ := ran
    rw [get_bind_run, (here.withStack rest).getInsertBlock] at ran
    obtain ⟨switch, middle, branch, ran⟩ := bind_ok.mp ran
    obtain ⟨label, branches, created⟩ := (visitBr_ok (here.withStack rest) deep).mp branch
    rw [createBranch_brTable ((here.withStack rest).branchTo label)] at created
    cases created
    obtain ⟨_, _, visited, ran⟩ := bind_ok.mp ran
    obtain ⟨labels, all, rfl⟩ := (visitTargets_ok (by rfl)).mp visited
    cases ran
    exact ⟨rfl, value, rest, label, labels, top, branches,
      all.imp fun _ _ reaches => ⟨reaches.found, reaches.enough⟩, rfl⟩
  · rintro ⟨rfl, value, rest, label, labels, top, branches, all, rfl⟩
    have deep := (List.getElem?_eq_some_iff.mp branches.found).1
    refine ⟨value, rest, top, ?_⟩
    rw [labelIndex_bind_ok]
    refine ⟨deep, ?_⟩
    have branch : visitBr .brTable _ (some value) none (context.withStack rest) = _ :=
      (visitBr_ok (here.withStack rest) deep).mpr
        ⟨label, branches, createBranch_brTable ((here.withStack rest).branchTo label)⟩
    rw [get_bind_run, (here.withStack rest).getInsertBlock, bind_run_ok branch]
    have visited : visitTargets context.function.insts.length (some block) targets 0
        (context.startTable block value rest label) = _ :=
      (visitTargets_ok (by rfl)).mpr
        ⟨labels, all.imp fun _ _ reaches => ⟨reaches.found, reaches.enough⟩, rfl⟩
    exact bind_run_ok visited

end Visits

/-! ## Bodies -/

/-- The variable `entry` names the block of the insertion point. -/
def Synced (context : BlockContext I.Op) (entry : Option Nat) : Prop :=
  context.insertPoint = none ∨ ∃ block, context.At block ∧ entry = some block

theorem visitControlInsts_skipped {exprs : List (Expr I.Instr)} {exit : Nat} {entry : Option Nat}
    {context : BlockContext I.Op} (nowhere : context.insertPoint = none) :
    visitControlInsts I exit exprs entry context = .ok ((), context) := by
  induction exprs with
  | nil => simp only [visitControlInsts, pure_run]
  | cons expr exprs ih =>
      simp only [visitControlInsts, get_bind_run, getInsertBlock, nowhere, Option.map_none]
      exact ih

theorem visitControlInsts_cons {expr : Expr I.Instr} {exprs : List (Expr I.Instr)} {exit block : Nat}
    {context : BlockContext I.Op} (here : context.At block) :
    visitControlInsts I exit (expr :: exprs) (some block) context =
      (visitExpr I (some block) exit expr >>= fun entry => visitControlInsts I exit exprs entry)
        context := by
  simp only [visitControlInsts, get_bind_run, here.getInsertBlock]

/-- What is to be shown of a body. -/
def BodyOk (exprs : List (Expr I.Instr)) : Prop :=
  ∀ (exit : Nat) (entry : Option Nat) (context final : BlockContext I.Op), Synced context entry →
    (visitControlInsts I exit exprs entry context = .ok ((), final) ↔ Emits I context exprs final)

section Bodies

variable {exit block : Nat} {entry : Option Nat} {context final : BlockContext I.Op}
  {decl : BlockDeclaration} {body other : List (Expr I.Instr)}

theorem visitExpr_block_ok (bodyOk : BodyOk body) (here : context.At block) :
    visitExpr I (some block) exit (.block decl body) context = .ok (entry, final) ↔
      entry = some context.function.blocks.length ∧ ∃ types inner, Convert decl.results types ∧
        Emits I (context.startBlock block decl types) body inner ∧
        Closable inner (context.blockLabel decl types).pos decl.results.length ∧
        final = (inner.leave .block (context.blockLabel decl types)).moveTo
          context.function.blocks.length := by
  have runs : ∀ types inner, visitControlInsts I context.function.blocks.length body (some block)
      (context.startBlock block decl types) = .ok ((), inner) ↔
        Emits I (context.startBlock block decl types) body inner :=
    fun types inner => bodyOk _ _ _ _ (.inr ⟨block, startBlock_at decl types here, rfl⟩)
  have lasting : ∀ types inner, visitControlInsts I context.function.blocks.length body (some block)
      (context.startBlock block decl types) = .ok ((), inner) → inner.Placed :=
    fun types inner ran =>
      ((runs types inner).mp ran).placed (.inr ⟨block, startBlock_at decl types here⟩)
  have bound : context.function.blocks.length < (context.newBlock "blk_exit").function.blocks.length := by
    simp
  have fresh : (context.newBlock "blk_exit").function.body context.function.blocks.length = [] := by
    simp [Function.body_eq_nil]
  rw [visitExpr, bind_run_ok (createBlock_run _ _), bind_ok]
  constructor
  · rintro ⟨_, middle, visited, ran⟩
    obtain ⟨types, inner, all, run, closable, rfl⟩ :=
      (visitBlock_label_ok (.inl rfl) bound fresh lasting).mp visited
    rw [bind_run_ok (setInsertPoint_run _ _)] at ran
    cases ran
    exact ⟨rfl, types, inner, all, (runs types inner).mp run, closable, rfl⟩
  · rintro ⟨rfl, types, inner, all, run, closable, rfl⟩
    refine ⟨(), _, (visitBlock_label_ok (.inl rfl) bound fresh lasting).mpr
      ⟨types, inner, all, (runs types inner).mpr run, closable, rfl⟩, ?_⟩
    rw [bind_run_ok (setInsertPoint_run _ _)]
    rfl

theorem visitExpr_loop_ok (bodyOk : BodyOk body) (here : context.At block) :
    visitExpr I (some block) exit (.loop decl body) context = .ok (entry, final) ↔
      ∃ types inner, Convert decl.params.reverse types ∧
        decl.params.length ≤ context.stack.length ∧
        Emits I (context.startLoop block decl types) body inner ∧
        (inner.insertPoint ≠ none →
          (inner.stack.length : Int) = labelPos .loop context.stack decl + decl.results.length ∧
            decl.params.length ≤ inner.stack.length) ∧
        entry = inner.getInsertBlock ∧ final = inner.withLabels inner.blockStack.tail := by
  have entered : (context.branchToLoop block decl).At context.function.blocks.length := by
    refine ⟨rfl, ?_⟩
    simp [branchToLoop]
  have fresh : (context.branchToLoop block decl).function.body context.function.blocks.length = [] := by
    have old : context.function.blocks.length ≠ block := by have := here.bound; omega
    simp [branchToLoop, Function.body_append_of_ne old, Function.body_eq_nil]
  have runs : ∀ types inner, visitControlInsts I exit body (some context.function.blocks.length)
      (context.startLoop block decl types) = .ok ((), inner) ↔
        Emits I (context.startLoop block decl types) body inner :=
    fun types inner => bodyOk _ _ _ _ (.inr ⟨_, startLoop_at decl types, rfl⟩)
  rw [visitExpr, bind_run_ok (createBlock_run _ _), get_bind_run, (here.newBlock _).getInsertBlock,
    bind_run_ok (addEdge_run _ _ _ _ _),
    bind_run_ok (insert_run ((here.newBlock _).addEdge _ _ _ _) _),
    bind_run_ok (setInsertPoint_run _ _), bind_ok]
  constructor
  · rintro ⟨_, middle, visited, ran⟩
    obtain ⟨types, inner, all, enough, run, closable, rfl⟩ :=
      (visitBlock_loop_ok entered fresh).mp visited
    cases ran
    exact ⟨types, inner, all, enough, (runs types inner).mp run, closable, rfl, rfl⟩
  · rintro ⟨types, inner, all, enough, run, closable, rfl, rfl⟩
    exact ⟨(), _, (visitBlock_loop_ok entered fresh).mpr
      ⟨types, inner, all, enough, (runs types inner).mpr run, closable, rfl⟩, rfl⟩

/-- The part of a conditional after its branch. -/
def visitArms (I : InstructionSet) (first : Nat) (decl : BlockDeclaration)
    (trueExprs falseExprs : List (Expr I.Instr)) (params : List Value) :
    Build I.Op (Option Nat) := do
  setInsertPoint (some first)
  visitBlock .if_ (some first) (first + 2) decl
    (visitControlInsts I (first + 2) trueExprs (some first))
  modify fun context => { context with stack := params ++ context.stack }
  setInsertPoint (some (first + 1))
  visitBlock .else_ (some (first + 1)) (first + 2) decl
    (visitControlInsts I (first + 2) falseExprs (some (first + 1)))
  setInsertPoint (some (first + 2))
  return some (first + 2)

theorem visitExpr_if_run (here : context.At block) {value : Value} {rest : List Value}
    (top : context.stack = value :: rest) (enough : decl.params.length ≤ rest.length) :
    visitExpr I (some block) exit (.if_ decl body other) context =
      visitArms I context.function.blocks.length decl body other (rest.take decl.params.length)
        (context.branchToArms block value rest) := by
  have atBlock := (((((compareZero_at here value rest).newBlock "ifblk").newBlock
    "elseblk").newBlock "ifblk_exit").addEdge .arm block context.function.blocks.length []).addEdge
      .arm block (context.function.blocks.length + 1) []
  have popped : popStack context = .ok (value, context.withStack rest) :=
    popStack_ok.mpr ⟨rest, top, rfl⟩
  rw [visitExpr, bind_run_ok popped, get_bind_run]
  simp only [withStack_stack, Nat.not_lt.mpr enough, if_false, (here.withStack rest).getInsertBlock]
  rw [bind_run_ok (createICmpNE_compareZero here value rest),
    bind_run_ok (createBlock_run _ _), bind_run_ok (createBlock_run _ _),
    bind_run_ok (createBlock_run _ _)]
  simp only [newBlock_function, Function.blocks_length_newBlock, compareZero_blocks]
  rw [bind_run_ok (addEdge_run _ _ _ _ _), bind_run_ok (addEdge_run _ _ _ _ _),
    bind_run_ok (insert_run atBlock _)]
  rfl

section Arms

variable {value : Value} {rest params : List Value} {types : List Ty} {first : BlockContext I.Op}

theorem startElse_placed (run : Emits I (context.startThen block value rest decl types) body first) :
    (first.startElse (context.ifLabel block value rest decl types)
      (context.function.blocks.length + 1) params).At (context.function.blocks.length + 1) := by
  refine startElse_at _ _ ?_
  have grown := run.blocks_le
  rw [startThen_blocks_length] at grown
  omega

/-- The second arm finds the label of the first one. -/
theorem startElse_blockStack
    (run : Emits I (context.startThen block value rest decl types) body first) :
    (first.startElse (context.ifLabel block value rest decl types)
      (context.function.blocks.length + 1) params).blockStack =
        context.ifLabel block value rest decl types :: context.blockStack := by
  simp [startElse, leave, run.blockStack]
  rfl

end Arms

theorem visitThen_ok (trueOk : BodyOk body) (here : context.At block) (value : Value)
    (rest : List Value) :
    visitBlock .if_ (some context.function.blocks.length) (context.function.blocks.length + 2) decl
        (visitControlInsts I (context.function.blocks.length + 2) body
          (some context.function.blocks.length))
        ((context.branchToArms block value rest).moveTo context.function.blocks.length) =
          .ok ((), final) ↔
      ∃ types first, Convert decl.results types ∧
        Emits I (context.startThen block value rest decl types) body first ∧
        Closable first (context.ifLabel block value rest decl types).pos decl.results.length ∧
        final = first.leave .if_ (context.ifLabel block value rest decl types) := by
  let opened := (context.branchToArms block value rest).moveTo context.function.blocks.length
  have bound : context.function.blocks.length + 2 < opened.function.blocks.length := by
    simp [opened]
  have fresh : opened.function.body (context.function.blocks.length + 2) = [] := by
    have old : context.function.blocks.length + 2 ≠ block := by have := here.bound; omega
    simp [opened, branchToArms, compareZero, Function.body_append_of_ne old, Function.body_eq_nil]
  have runs : ∀ types first,
      visitControlInsts I (context.function.blocks.length + 2) body
        (some context.function.blocks.length) (context.startThen block value rest decl types) =
          .ok ((), first) ↔ Emits I (context.startThen block value rest decl types) body first :=
    fun types first => trueOk _ _ _ _ (.inr ⟨_, startThen_at decl types value rest, rfl⟩)
  have lasting : ∀ types first,
      visitControlInsts I (context.function.blocks.length + 2) body
        (some context.function.blocks.length) (context.startThen block value rest decl types) =
          .ok ((), first) → first.Placed :=
    fun types first ran =>
      ((runs types first).mp ran).placed (.inr ⟨_, startThen_at decl types value rest⟩)
  refine (visitBlock_label_ok (.inr (.inr rfl)) bound fresh lasting).trans ?_
  refine exists_congr fun types => exists_congr fun first => and_congr_right fun _ => ?_
  exact and_congr_left fun _ => runs types first

theorem visitElse_ok (falseOk : BodyOk other) {value : Value} {rest params : List Value}
    {types : List Ty} {first : BlockContext I.Op} (all : Convert decl.results types)
    (run : Emits I (context.startThen block value rest decl types) body first) :
    visitBlock .else_ (some (context.function.blocks.length + 1))
        (context.function.blocks.length + 2) decl
        (visitControlInsts I (context.function.blocks.length + 2) other
          (some (context.function.blocks.length + 1)))
        (first.startElse (context.ifLabel block value rest decl types)
          (context.function.blocks.length + 1) params) = .ok ((), final) ↔
      ∃ second, Emits I (first.startElse (context.ifLabel block value rest decl types)
          (context.function.blocks.length + 1) params) other second ∧
        Closable second (context.ifLabel block value rest decl types).pos decl.results.length ∧
        final = second.leave .else_ (context.ifLabel block value rest decl types) := by
  have placed : (first.startElse (context.ifLabel block value rest decl types)
      (context.function.blocks.length + 1) params).At (context.function.blocks.length + 1) :=
    startElse_placed run
  have runs : ∀ second, visitControlInsts I (context.function.blocks.length + 2) other
      (some (context.function.blocks.length + 1)) _ = .ok ((), second) ↔ Emits I _ other second :=
    fun second => falseOk _ _ _ _ (.inr ⟨_, placed, rfl⟩)
  refine (visitBlock_else_ok placed (startElse_blockStack run) (exitLabel_sized _ _ _ all)
    fun second ran => ((runs second).mp ran).placed (.inr ⟨_, placed⟩)).trans ?_
  exact exists_congr fun second => and_congr_left fun _ => runs second

theorem visitExpr_if_ok (trueOk : BodyOk body) (falseOk : BodyOk other) (here : context.At block) :
    visitExpr I (some block) exit (.if_ decl body other) context = .ok (entry, final) ↔
      entry = some (context.function.blocks.length + 2) ∧ ∃ value rest types first second,
        context.stack = value :: rest ∧ decl.params.length ≤ rest.length ∧
        Convert decl.results types ∧
        Emits I (context.startThen block value rest decl types) body first ∧
        Closable first (context.ifLabel block value rest decl types).pos decl.results.length ∧
        Emits I (first.startElse (context.ifLabel block value rest decl types)
          (context.function.blocks.length + 1) (rest.take decl.params.length)) other second ∧
        Closable second (context.ifLabel block value rest decl types).pos decl.results.length ∧
        final = (second.leave .else_ (context.ifLabel block value rest decl types)).moveTo
          (context.function.blocks.length + 2) := by
  constructor
  · intro ran
    have ⟨value, rest, top, enough⟩ : ∃ value rest, context.stack = value :: rest ∧
        decl.params.length ≤ rest.length := by
      rw [visitExpr, popStack_bind_ok] at ran
      obtain ⟨value, rest, top, ran⟩ := ran
      refine ⟨value, rest, top, ?_⟩
      by_contra short
      rw [get_bind_run, withStack_stack, if_pos (Nat.lt_of_not_le short)] at ran
      cases ran
    rw [visitExpr_if_run here top enough, visitArms, bind_run_ok (setInsertPoint_run _ _)] at ran
    obtain ⟨_, middle, visited, ran⟩ := bind_ok.mp ran
    obtain ⟨types, first, all, runTrue, closableTrue, rfl⟩ :=
      (visitThen_ok trueOk here value rest).mp visited
    rw [modify_bind_run, bind_run_ok (setInsertPoint_run _ _)] at ran
    obtain ⟨_, _, visited, ran⟩ := bind_ok.mp ran
    obtain ⟨second, runFalse, closableFalse, rfl⟩ := (visitElse_ok falseOk all runTrue).mp visited
    rw [bind_run_ok (setInsertPoint_run _ _)] at ran
    cases ran
    exact ⟨rfl, value, rest, types, first, second, top, enough, all, runTrue, closableTrue, runFalse,
      closableFalse, rfl⟩
  · rintro ⟨rfl, value, rest, types, first, second, top, enough, all, runTrue, closableTrue, runFalse,
      closableFalse, rfl⟩
    rw [visitExpr_if_run here top enough, visitArms, bind_run_ok (setInsertPoint_run _ _),
      bind_run_ok ((visitThen_ok trueOk here value rest).mpr
        ⟨types, first, all, runTrue, closableTrue, rfl⟩), modify_bind_run,
      bind_run_ok (setInsertPoint_run _ _)]
    refine bind_ok.mpr ⟨(), _, (visitElse_ok falseOk all runTrue).mpr
      ⟨second, runFalse, closableFalse, rfl⟩, ?_⟩
    rw [bind_run_ok (setInsertPoint_run _ _)]
    rfl

end Bodies

theorem Emits.eq_of_nowhere {context final : BlockContext I.Op} {exprs : List (Expr I.Instr)}
    (emits : Emits I context exprs final) (nowhere : context.insertPoint = none) :
    final = context := by
  cases emits with
  | nil => rfl
  | skipped _ => rfl
  | step here _ _ => exact absurd nowhere here.reachable
  | block here _ _ _ _ => exact absurd nowhere here.reachable
  | loop here _ _ _ _ _ => exact absurd nowhere here.reachable
  | if_ here _ _ _ _ _ _ _ _ => exact absurd nowhere here.reachable

theorem step_straight_iff {expr : Expr I.Instr} {visit : Visit I.Op Unit} {block : Nat}
    {context final : BlockContext I.Op} (code : straightVisit I expr = some visit) :
    Step I context block expr final ↔
      ∃ after, visit (visitStart context) = .ok ((), after) ∧
        final = context.afterVisit block after := by
  constructor
  · intro step
    cases step with
    | straight code' ran =>
        obtain rfl := Option.some.inj (code.symm.trans code')
        exact ⟨_, ran, rfl⟩
    | unreachable => cases code
    | br _ => cases code
    | return_ _ _ => cases code
    | brIf _ _ => cases code
    | brTable _ _ _ => cases code
  · rintro ⟨after, ran, rfl⟩
    exact .straight code ran

theorem visitExpr_step_ok {expr : Expr I.Instr} {exit block : Nat} {entry : Option Nat}
    {context final : BlockContext I.Op} (here : context.At block) (bodyless : isBodyless expr) :
    visitExpr I (some block) exit expr context = .ok (entry, final) ↔
      entry = some (stepEntry context block expr) ∧ Step I context block expr final := by
  cases expr with
  | block | loop | if_ => cases bodyless
  | nop | drop | select | localGet | localSet | localTee | instr =>
      rw [visitExpr_straight_ok here rfl, step_straight_iff rfl]
      rfl
  | unreachable =>
      rw [visitExpr_unreachable here]
      simp only [Except.ok.injEq, Prod.mk.injEq, stepEntry]
      constructor
      · rintro ⟨rfl, rfl⟩
        exact ⟨rfl, .unreachable⟩
      · rintro ⟨rfl, step⟩
        cases step with
        | straight code _ => cases code
        | unreachable => exact ⟨rfl, rfl⟩
  | br depth =>
      rw [visitExpr_br_ok here]
      refine and_congr_right fun _ => ⟨?_, fun step => ?_⟩
      · rintro ⟨label, branches, rfl⟩
        exact .br branches
      · cases step with
        | straight code _ => cases code
        | br branches => exact ⟨_, branches, rfl⟩
  | return_ =>
      rw [visitExpr_return_ok here]
      refine and_congr_right fun _ => ⟨?_, fun step => ?_⟩
      · rintro ⟨depth, label, outermost, branches, rfl⟩
        exact .return_ outermost branches
      · cases step with
        | straight code _ => cases code
        | return_ outermost branches => exact ⟨_, _, outermost, branches, rfl⟩
  | brIf depth =>
      rw [visitExpr_brIf_ok here]
      refine and_congr_right fun _ => ⟨?_, fun step => ?_⟩
      · rintro ⟨value, rest, label, top, branches, rfl⟩
        exact .brIf top branches
      · cases step with
        | straight code _ => cases code
        | brIf top branches => exact ⟨_, _, _, top, branches, rfl⟩
  | brTable targets default =>
      rw [visitExpr_brTable_ok here]
      refine and_congr_right fun _ => ⟨?_, fun step => ?_⟩
      · rintro ⟨value, rest, label, labels, top, branches, all, rfl⟩
        exact .brTable top branches all
      · cases step with
        | straight code _ => cases code
        | brTable top branches all => exact ⟨_, _, _, _, top, branches, all, rfl⟩

theorem afterBlock_at {context inner : BlockContext I.Op} {block : Nat} {decl : BlockDeclaration}
    {types : List Ty} {body : List (Expr I.Instr)} (label : BreakoutTarget)
    (run : Emits I (context.startBlock block decl types) body inner) :
    ((inner.leave .block label).moveTo context.function.blocks.length).At
      context.function.blocks.length := by
  refine moveTo_at ?_
  have grown := run.blocks_le
  rw [startBlock_blocks_length] at grown
  rw [leave_blocks_length]
  omega

theorem afterLoop_synced {context inner : BlockContext I.Op} {block : Nat}
    {decl : BlockDeclaration} {types : List Ty} {body : List (Expr I.Instr)}
    (run : Emits I (context.startLoop block decl types) body inner) :
    Synced (inner.withLabels inner.blockStack.tail) inner.getInsertBlock := by
  rcases run.placed (.inr ⟨_, startLoop_at _ _⟩) with nowhere | ⟨block, there⟩
  · exact .inl nowhere
  · exact .inr ⟨block, there.withLabels _, there.getInsertBlock⟩

theorem afterIf_at {context first second : BlockContext I.Op} {block elseBlock : Nat}
    {value : Value} {rest params : List Value} {decl : BlockDeclaration} {types : List Ty}
    {body other : List (Expr I.Instr)} {label : BreakoutTarget}
    (runTrue : Emits I (context.startThen block value rest decl types) body first)
    (runFalse : Emits I (first.startElse label elseBlock params) other second) :
    ((second.leave .else_ label).moveTo (context.function.blocks.length + 2)).At
      (context.function.blocks.length + 2) := by
  refine moveTo_at ?_
  have grown := runTrue.blocks_le
  have grownFalse := runFalse.blocks_le
  rw [startThen_blocks_length] at grown
  rw [startElse_blocks_length] at grownFalse
  rw [leave_blocks_length]
  omega

/-- `Emits` is exactly the successful runs of `visitControlInsts`. -/
theorem visitControlInsts_ok : (exprs : List (Expr I.Instr)) → BodyOk exprs
  | [], exit, entry, context, final, synced => by
      simp only [visitControlInsts, pure_run, Except.ok.injEq, Prod.mk.injEq, true_and]
      constructor
      · rintro rfl
        exact .nil
      · intro emits
        cases emits <;> rfl
  | expr :: exprs, exit, entry, context, final, synced => by
      rcases synced with nowhere | ⟨block, here, rfl⟩
      · rw [visitControlInsts_skipped nowhere]
        simp only [Except.ok.injEq, Prod.mk.injEq, true_and]
        constructor
        · rintro rfl
          exact .skipped nowhere
        · intro emits
          exact (emits.eq_of_nowhere nowhere).symm
      rw [visitControlInsts_cons here, bind_ok]
      have tailOk := visitControlInsts_ok exprs
      by_cases bodyless : isBodyless expr
      · constructor
        · rintro ⟨entry, middle, head, tail⟩
          obtain ⟨rfl, step⟩ := (visitExpr_step_ok here bodyless).mp head
          have synced : Synced middle (some (stepEntry context block expr)) :=
            (step.synced here).imp_right fun there => ⟨_, there, rfl⟩
          exact .step here step ((tailOk _ _ _ _ synced).mp tail)
        · intro emits
          cases emits with
          | skipped nowhere => exact absurd nowhere here.reachable
          | step here' step tail =>
              obtain rfl := here.unique here'
              have synced : Synced _ (some (stepEntry context block expr)) :=
                (step.synced here).imp_right fun there => ⟨_, there, rfl⟩
              exact ⟨_, _, (visitExpr_step_ok here bodyless).mpr ⟨rfl, step⟩,
                (tailOk _ _ _ _ synced).mpr tail⟩
          | block | loop | if_ => cases bodyless
      cases expr with
      | block decl body =>
          have bodyOk := visitControlInsts_ok body
          constructor
          · rintro ⟨entry, middle, head, tail⟩
            obtain ⟨rfl, types, inner, all, run, closable, rfl⟩ :=
              (visitExpr_block_ok bodyOk here).mp head
            exact .block here all run closable
              ((tailOk _ _ _ _ (.inr ⟨_, afterBlock_at _ run, rfl⟩)).mp tail)
          · intro emits
            cases emits with
            | skipped nowhere => exact absurd nowhere here.reachable
            | step _ step _ => exact absurd step.bodyless bodyless
            | block here' all run closable tail =>
                obtain rfl := here.unique here'
                exact ⟨_, _, (visitExpr_block_ok bodyOk here).mpr
                  ⟨rfl, _, _, all, run, closable, rfl⟩,
                  (tailOk _ _ _ _ (.inr ⟨_, afterBlock_at _ run, rfl⟩)).mpr tail⟩
      | loop decl body =>
          have bodyOk := visitControlInsts_ok body
          constructor
          · rintro ⟨entry, middle, head, tail⟩
            obtain ⟨types, inner, all, enough, run, closable, rfl, rfl⟩ :=
              (visitExpr_loop_ok bodyOk here).mp head
            exact .loop here all enough run closable
              ((tailOk _ _ _ _ (afterLoop_synced run)).mp tail)
          · intro emits
            cases emits with
            | skipped nowhere => exact absurd nowhere here.reachable
            | step _ step _ => exact absurd step.bodyless bodyless
            | loop here' all enough run closable tail =>
                obtain rfl := here.unique here'
                exact ⟨_, _, (visitExpr_loop_ok bodyOk here).mpr
                  ⟨_, _, all, enough, run, closable, rfl, rfl⟩,
                  (tailOk _ _ _ _ (afterLoop_synced run)).mpr tail⟩
      | if_ decl body other =>
          have trueOk := visitControlInsts_ok body
          have falseOk := visitControlInsts_ok other
          constructor
          · rintro ⟨entry, middle, head, tail⟩
            obtain ⟨rfl, value, rest, types, first, second, top, enough, all, runTrue, closableTrue,
              runFalse, closableFalse, rfl⟩ := (visitExpr_if_ok trueOk falseOk here).mp head
            exact .if_ here top enough all runTrue closableTrue runFalse closableFalse
              ((tailOk _ _ _ _ (.inr ⟨_, afterIf_at runTrue runFalse, rfl⟩)).mp tail)
          · intro emits
            cases emits with
            | skipped nowhere => exact absurd nowhere here.reachable
            | step _ step _ => exact absurd step.bodyless bodyless
            | if_ here' top enough all runTrue closableTrue runFalse closableFalse tail =>
                obtain rfl := here.unique here'
                exact ⟨_, _, (visitExpr_if_ok trueOk falseOk here).mpr
                  ⟨rfl, _, _, _, _, _, top, enough, all, runTrue, closableTrue, runFalse,
                    closableFalse, rfl⟩,
                  (tailOk _ _ _ _ (.inr ⟨_, afterIf_at runTrue runFalse, rfl⟩)).mpr tail⟩
      | _ => exact absurd rfl bodyless

/-! ## Functions -/

/-- Storage for values of the given types, each initialized. -/
def storage {Op : Type} : Nat → List (Ty × Value) → List (Inst Op)
  | _, [] => []
  | next, (type, value) :: entries =>
      .plain (.alloca type) :: .plain (.store value (.inst next .ptr)) :: storage (next + 2) entries

def storageLocals : Nat → List (Ty × Value) → List AllocaInst
  | _, [] => []
  | next, (type, _) :: entries => ⟨next, type⟩ :: storageLocals (next + 2) entries

/-- The arguments from an index on. -/
def arguments : Nat → List Ty → List (Ty × Value)
  | _, [] => []
  | index, type :: types => (type, .arg index type) :: arguments (index + 1) types

/-- The initial value of a local. -/
def zeroValue : Ty → Value
  | .int width => .int width 0
  | .float => .float 0
  | .double => .double 0
  | type => .null type

def zeros (types : List Ty) : List (Ty × Value) :=
  types.map fun type => (type, zeroValue type)

namespace BlockContext

variable {Op : Type}

@[simps] def addLocals (context : BlockContext Op) (locals : List AllocaInst) : BlockContext Op :=
  { context with locals := context.locals ++ locals }

/-- Storage at the end of a block. -/
def store (context : BlockContext Op) (block : Nat) (entries : List (Ty × Value)) :
    BlockContext Op :=
  (context.emitAll block (storage context.function.insts.length entries)).addLocals
    (storageLocals context.function.insts.length entries)

theorem store_nil {context : BlockContext Op} {block : Nat} (here : context.At block) :
    context.store block [] = context := by
  conv_rhs => rw [← here.moveTo_eq]
  simp [store, storage, storageLocals, addLocals, emitAll, moveTo]

theorem store_cons (context : BlockContext Op) (block : Nat) (type : Ty) (value : Value)
    (entries : List (Ty × Value)) :
    (((context.emit block (.plain (.alloca type))).addLocals
      [⟨context.function.insts.length, type⟩]).emit block
        (.plain (.store value (.inst context.function.insts.length .ptr)))).store block entries =
          context.store block ((type, value) :: entries) := by
  simp [store, storage, storageLocals, addLocals, emitAll]

theorem store_at {context : BlockContext Op} {block : Nat} (here : context.At block)
    (entries : List (Ty × Value)) : (context.store block entries).At block :=
  ⟨rfl, by simpa [store] using here.bound⟩

end BlockContext

section Prologue

variable {Op : Type} {block : Nat} {context final : BlockContext Op}

theorem convertZeroValue_eq {type : ValType} {converted : Ty}
    (found : convertType? type = some converted) :
    (convertZeroValue type : Build Op Value) = pure (zeroValue converted) := by
  cases type <;> cases found <;> rfl

theorem visitParams_ok {types : List ValType} {index : Nat} (here : context.At block) :
    visitParams types index context = .ok ((), final) ↔
      ∃ converted, Convert types converted ∧
        final = context.store block (arguments index converted) := by
  induction types generalizing index context with
  | nil =>
      simp only [visitParams, pure_run, Except.ok.injEq, Prod.mk.injEq, true_and, Convert,
        List.forall₂_nil_left_iff, exists_eq_left, arguments, store_nil here]
      exact eq_comm
  | cons type types ih =>
      have stored : ∀ converted, ((context.emit block (.plain (.alloca converted))).addLocals
          [⟨context.function.insts.length, converted⟩]).At block :=
        fun converted => ⟨rfl, by simpa using here.bound⟩
      have step : ∀ converted, (insert (.plain (.alloca converted)) >>= fun id =>
          addLocal ⟨id, converted⟩ >>= fun _ =>
          insert (.plain (.store (.arg index converted) (AllocaInst.value ⟨id, converted⟩))) >>=
            fun _ => visitParams types (index + 1)) context =
          visitParams types (index + 1)
            (((context.emit block (.plain (.alloca converted))).addLocals
              [⟨context.function.insts.length, converted⟩]).emit block
                (.plain (.store (.arg index converted)
                  (.inst context.function.insts.length .ptr)))) := by
        intro converted
        rw [bind_run_ok (insert_run here _), bind_run_ok (by rfl)]
        exact bind_run_ok (insert_run (stored converted) _)
      rw [visitParams, convertType_bind_ok]
      simp only [step, ih (emitAll_at _ (stored _).bound)]
      constructor
      · rintro ⟨converted, found, others, all, rfl⟩
        exact ⟨converted :: others, .cons found all, store_cons _ _ _ _ _⟩
      · rintro ⟨_, all, rfl⟩
        cases all with
        | cons found all => exact ⟨_, found, _, all, (store_cons _ _ _ _ _).symm⟩

theorem visitLocals_ok {types : List ValType} (here : context.At block) :
    visitLocals types context = .ok ((), final) ↔
      ∃ converted, Convert types converted ∧ final = context.store block (zeros converted) := by
  induction types generalizing context with
  | nil =>
      simp only [visitLocals, pure_run, Except.ok.injEq, Prod.mk.injEq, true_and, Convert,
        List.forall₂_nil_left_iff, exists_eq_left, zeros, List.map_nil, store_nil here]
      exact eq_comm
  | cons type types ih =>
      have stored : ∀ converted, ((context.emit block (.plain (.alloca converted))).addLocals
          [⟨context.function.insts.length, converted⟩]).At block :=
        fun converted => ⟨rfl, by simpa using here.bound⟩
      have step : ∀ converted, convertType? type = some converted →
          (insert (.plain (.alloca converted)) >>= fun id => addLocal ⟨id, converted⟩ >>= fun _ =>
            convertZeroValue type >>= fun zero =>
            insert (.plain (.store zero (AllocaInst.value ⟨id, converted⟩))) >>= fun _ =>
              visitLocals types) context =
          visitLocals types
            (((context.emit block (.plain (.alloca converted))).addLocals
              [⟨context.function.insts.length, converted⟩]).emit block
                (.plain (.store (zeroValue converted)
                  (.inst context.function.insts.length .ptr)))) := by
        intro converted found
        rw [bind_run_ok (insert_run here _), bind_run_ok (by rfl), convertZeroValue_eq found,
          pure_bind_run]
        exact bind_run_ok (insert_run (stored converted) _)
      rw [visitLocals, convertType_bind_ok]
      constructor
      · rintro ⟨converted, found, ran⟩
        rw [step converted found, ih (emitAll_at _ (stored _).bound)] at ran
        obtain ⟨others, all, rfl⟩ := ran
        exact ⟨converted :: others, .cons found all, store_cons _ _ _ _ _⟩
      · rintro ⟨_, all, rfl⟩
        cases all with
        | @cons _ converted _ others found all =>
        refine ⟨converted, found, ?_⟩
        rw [step converted found, ih (emitAll_at _ (stored _).bound)]
        exact ⟨others, all, (store_cons _ _ _ _ _).symm⟩

end Prologue

namespace BlockContext

variable {Op : Type}

/-- The function before its body: the entry block with the locals, and the return block. -/
def prologue (params locals : List Ty) : BlockContext Op :=
  ((((BlockContext.newBlock ⟨.empty, none, [], [], [], []⟩ "allocator").moveTo 0).store 0
    (arguments 0 params)).store 0 (zeros locals)).newBlock "return"

/-- The label of a function. -/
def funcLabel (Op : Type) (params locals results : List Ty) (decl : BlockDeclaration) : BreakoutTarget :=
  (prologue params locals : BlockContext Op).exitLabel .func 1 decl results

def startFunc (params locals results : List Ty) (decl : BlockDeclaration) : BlockContext Op :=
  (prologue params locals).openLabel .func 0 1 decl results

/-- The return at the end of a function. -/
def finish (context : BlockContext Op) (block : Nat) (arity : Nat) : BlockContext Op :=
  match arity, context.stack with
  | 0, _ => context.emit block (.ret none)
  | _, value :: rest => (context.withStack rest).emit block (.ret (some value))
  | _, [] => context

theorem prologue_blocks_length (params locals : List Ty) :
    (prologue params locals : BlockContext Op).function.blocks.length = 2 := by
  simp [prologue, store, Function.empty]

theorem startFunc_at (params locals results : List Ty) (decl : BlockDeclaration) :
    (startFunc params locals results decl : BlockContext Op).At 0 := by
  refine ⟨rfl, ?_⟩
  simp [startFunc, openLabel, prologue_blocks_length]

end BlockContext

theorem createReturn_ok {Op : Type} {results : List ValType} {block : Nat}
    {context final : BlockContext Op} (here : context.At block)
    (enough : results.length ≤ context.stack.length) :
    createReturn results context = .ok ((), final) ↔
      results.length ≤ 1 ∧ final = context.finish block results.length := by
  rcases results with _ | ⟨result, _ | ⟨second, more⟩⟩
  · simp only [createReturn, List.length_nil, Nat.zero_ne_one, ne_eq, not_true_eq_false, if_false]
    rw [bind_run_ok (insert_run here _)]
    simp [finish, eq_comm]
  · obtain ⟨value, rest, top⟩ := List.exists_cons_of_length_pos (Nat.lt_of_lt_of_le Nat.one_pos enough)
    simp only [createReturn, List.length_singleton, if_true]
    rw [bind_run_ok (popStack_ok.mpr ⟨rest, top, rfl⟩), bind_run_ok (insert_run (here.withStack rest) _)]
    simp [finish, top, eq_comm]
  · simp [createReturn]

/-- A successful run of `visitFunc`. -/
inductive EmitsFunc (I : InstructionSet) (func : Func I.Instr) : BlockContext I.Op → Prop where
  | intro {params locals results : List Ty} {inner : BlockContext I.Op}
      (paramsOk : Convert func.decl.params params) (localsOk : Convert func.localTypes locals)
      (resultsOk : Convert func.decl.results results)
      (run : Emits I (startFunc params locals results func.decl) func.exprs inner)
      (closable : Closable inner (funcLabel I.Op params locals results func.decl).pos
        func.decl.results.length)
      (single : func.decl.results.length ≤ 1) :
      EmitsFunc I func (((inner.leave .func
        (funcLabel I.Op params locals results func.decl)).moveTo 1).finish 1
          func.decl.results.length)

theorem visitFuncBody_ok {func : Func I.Instr} {final : BlockContext I.Op} :
    visitFuncBody I func ⟨.empty, none, [], [], [], []⟩ = .ok ((), final) ↔
      EmitsFunc I func final := by
  let opened : BlockContext I.Op :=
    (BlockContext.newBlock ⟨.empty, none, [], [], [], []⟩ "allocator").moveTo 0
  have here : opened.At 0 := moveTo_at (by simp [Function.empty])
  have bound : ∀ params locals,
      1 < (prologue params locals : BlockContext I.Op).function.blocks.length := by
    simp [prologue_blocks_length]
  have fresh : ∀ params locals,
      (prologue params locals : BlockContext I.Op).function.body 1 = [] := by
    intro params locals
    simp [prologue, store, Function.body_eq_nil, Function.empty]
  have runs : ∀ params locals results inner, visitControlInsts I 1 func.exprs (some 0)
      (startFunc params locals results func.decl) = .ok ((), inner) ↔
        Emits I (startFunc params locals results func.decl) func.exprs inner :=
    fun params locals results inner =>
      visitControlInsts_ok _ _ _ _ _ (.inr ⟨0, startFunc_at _ _ _ _, rfl⟩)
  have lasting : ∀ params locals results inner, visitControlInsts I 1 func.exprs (some 0)
      (startFunc params locals results func.decl) = .ok ((), inner) → inner.Placed :=
    fun params locals results inner ran =>
      ((runs params locals results inner).mp ran).placed (.inr ⟨0, startFunc_at _ _ _ _⟩)
  have count : ∀ params locals,
      ((opened.store 0 params).store 0 locals).function.blocks.length = 1 := by
    simp [opened, store, Function.empty]
  have left : ∀ {params locals results inner},
      Emits I (startFunc params locals results func.decl) func.exprs inner →
      ((inner.leave .func (funcLabel I.Op params locals results func.decl)).moveTo 1).At 1 := by
    intro params locals results inner emits
    refine moveTo_at ?_
    have grown := emits.blocks_le
    rw [leave_blocks_length]
    simp [startFunc, openLabel, prologue_blocks_length] at grown
    omega
  have enough : ∀ {params locals results}, Convert func.decl.results results →
      ∀ inner : BlockContext I.Op,
      func.decl.results.length ≤ ((BlockContext.leave inner .func
        (funcLabel I.Op params locals results func.decl)).moveTo 1).stack.length := by
    intro params locals results all inner
    simp [leave, funcLabel, exitLabel, all.length_eq]
  rw [visitFuncBody, bind_run_ok (createBlock_run _ _), bind_run_ok (setInsertPoint_run _ _)]
  constructor
  · intro ran
    obtain ⟨_, middle, visited, ran⟩ := bind_ok.mp ran
    obtain ⟨params, paramsOk, rfl⟩ := (visitParams_ok here).mp visited
    obtain ⟨_, middle, visited, ran⟩ := bind_ok.mp ran
    obtain ⟨locals, localsOk, rfl⟩ := (visitLocals_ok (store_at here _)).mp visited
    rw [bind_run_ok (createBlock_run _ _), count] at ran
    obtain ⟨_, _, visited, ran⟩ := bind_ok.mp ran
    obtain ⟨results, inner, resultsOk, run, closable, rfl⟩ :=
      (visitBlock_label_ok (.inr (.inl rfl)) (bound params locals) (fresh params locals)
        (lasting params locals)).mp visited
    have emits := (runs params locals results inner).mp run
    rw [bind_run_ok (setInsertPoint_run _ _)] at ran
    obtain ⟨single, rfl⟩ := (createReturn_ok (left emits) (enough resultsOk inner)).mp ran
    exact .intro paramsOk localsOk resultsOk emits closable single
  · rintro ⟨paramsOk, localsOk, resultsOk, emits, closable, single⟩
    refine bind_ok.mpr ⟨(), _, (visitParams_ok here).mpr ⟨_, paramsOk, rfl⟩, ?_⟩
    refine bind_ok.mpr ⟨(), _, (visitLocals_ok (store_at here _)).mpr ⟨_, localsOk, rfl⟩, ?_⟩
    rw [bind_run_ok (createBlock_run _ _), count]
    refine bind_ok.mpr ⟨(), _, (visitBlock_label_ok (.inr (.inl rfl)) (bound _ _) (fresh _ _)
      (lasting _ _)).mpr ⟨_, _, resultsOk, (runs _ _ _ _).mpr emits, closable, rfl⟩, ?_⟩
    rw [bind_run_ok (setInsertPoint_run _ _)]
    exact (createReturn_ok (left emits) (enough resultsOk _)).mpr ⟨single, rfl⟩

theorem visitFunc_ok {func : Func I.Instr} {final : BlockContext I.Op} :
    visitFunc I func = .ok final ↔ EmitsFunc I func final := by
  rw [← visitFuncBody_ok, visitFunc]
  cases visitFuncBody I func ⟨.empty, none, [], [], [], []⟩ with
  | error error => simp
  | ok pair => simp [Prod.ext_iff]

theorem visitFunc_completes {func : Func I.Instr} (ok : (visitFunc I func).isOk = true) :
    ∃ final, visitFunc I func = .ok final := by
  cases ran : visitFunc I func with
  | error error => simp [ran, Except.isOk, Except.toBool] at ok
  | ok final => exact ⟨final, rfl⟩

end WasmToLlvm.Block
