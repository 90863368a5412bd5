import Mathlib.Data.List.Forall2
import WasmToLlvm.Block.Visit
import WasmToLlvm.Llvm.Building

/-!
# What the operations of the translator do

Each operation of `visitBlock`, `visitBr` and the builder as an explicit change
of the state, for an insertion point at the end of a block.
-/

set_option autoImplicit false

namespace WasmToLlvm.Block

open Llvm Wasm Library

namespace BlockContext

variable {Op : Type}

/-- The insertion point is the end of this block. -/
structure At (context : BlockContext Op) (block : Nat) : Prop where
  point : context.insertPoint = some (block, (context.function.body block).length)
  bound : block < context.function.blocks.length

/-- Between two expressions the insertion point is the end of a block or cleared. -/
def Placed (context : BlockContext Op) : Prop :=
  context.insertPoint = none ∨ ∃ block, context.At block

@[simps] def moveTo (context : BlockContext Op) (block : Nat) : BlockContext Op :=
  { context with insertPoint := some (block, (context.function.body block).length) }

@[simps] def clear (context : BlockContext Op) : BlockContext Op :=
  { context with insertPoint := none }

@[simps] def withStack (context : BlockContext Op) (stack : List Value) : BlockContext Op :=
  { context with stack }

@[simps] def withLabels (context : BlockContext Op) (blockStack : List BreakoutTarget) :
    BlockContext Op :=
  { context with blockStack }

@[simps] def newBlock (context : BlockContext Op) (name : String) : BlockContext Op :=
  { context with function := context.function.newBlock name }

@[simps] def addIncomings (context : BlockContext Op) (entries : List (Nat × Value))
    (block : Option Nat) : BlockContext Op :=
  { context with function := context.function.addIncomings entries block }

@[simps] def addCase (context : BlockContext Op) (switch value target : Nat) : BlockContext Op :=
  { context with function := context.function.addCase switch value target }

/-- Instructions at the end of a block, where the insertion point then is. -/
@[simps] def emitAll (context : BlockContext Op) (block : Nat) (insts : List (Inst Op)) :
    BlockContext Op :=
  { context with
    function := context.function.appendAll block insts
    insertPoint := some (block, ((context.function.appendAll block insts).body block).length) }

abbrev emit (context : BlockContext Op) (block : Nat) (inst : Inst Op) : BlockContext Op :=
  context.emitAll block [inst]

theorem At.getInsertBlock {context : BlockContext Op} {block : Nat} (here : context.At block) :
    context.getInsertBlock = some block := by
  simp [BlockContext.getInsertBlock, here.point]

theorem At.reachable {context : BlockContext Op} {block : Nat} (here : context.At block) :
    context.insertPoint ≠ none := by
  simp [here.point]

theorem At.unique {context : BlockContext Op} {block block' : Nat} (here : context.At block)
    (here' : context.At block') : block = block' := by
  have same := here.point.symm.trans here'.point
  simpa using (Prod.mk.inj (Option.some.inj same)).1

theorem moveTo_at {context : BlockContext Op} {block : Nat}
    (bound : block < context.function.blocks.length) : (context.moveTo block).At block :=
  ⟨rfl, bound⟩

theorem emitAll_at {context : BlockContext Op} {block : Nat} (insts : List (Inst Op))
    (bound : block < context.function.blocks.length) : (context.emitAll block insts).At block :=
  ⟨rfl, by simpa using bound⟩

theorem At.withLabels {context : BlockContext Op} {block : Nat} (here : context.At block)
    (labels : List BreakoutTarget) : (context.withLabels labels).At block :=
  ⟨here.point, here.bound⟩

theorem At.withStack {context : BlockContext Op} {block : Nat} (here : context.At block)
    (stack : List Value) : (context.withStack stack).At block :=
  ⟨here.point, here.bound⟩

theorem At.newBlock {context : BlockContext Op} {block : Nat} (here : context.At block)
    (name : String) : (context.newBlock name).At block :=
  ⟨by simp [here.point], by simp [Nat.lt_succ_of_lt here.bound]⟩

theorem At.addEdge {context : BlockContext Op} {block : Nat} (here : context.At block)
    (kind : EdgeKind) (source target : Nat) (carried : List Value) :
    (context.addEdge kind source target carried).At block :=
  ⟨here.point, here.bound⟩

theorem At.addIncomings {context : BlockContext Op} {block : Nat} (here : context.At block)
    (entries : List (Nat × Value)) (from? : Option Nat) :
    (context.addIncomings entries from?).At block :=
  ⟨here.point, here.bound⟩

theorem At.moveTo_eq {context : BlockContext Op} {block : Nat} (here : context.At block) :
    context.moveTo block = context := by
  cases context
  have point := here.point
  simp only at point
  simp [moveTo, point]

theorem insert_eq_emit {context : BlockContext Op} {block : Nat} (here : context.At block)
    (inst : Inst Op) : context.insert inst = context.emit block inst := by
  simp [BlockContext.insert, here.point, emitAll, Function.appendAll, Function.append,
    Function.body_insertAt, here.bound]

theorem emit_emitAll {context : BlockContext Op} {block : Nat} (inst : Inst Op)
    (insts : List (Inst Op)) :
    (context.emit block inst).emitAll block insts = context.emitAll block (inst :: insts) := rfl

theorem insertAll_eq_emitAll {context : BlockContext Op} {block : Nat} (here : context.At block)
    (code : List (Plain Op)) :
    context.insertAll code = context.emitAll block (code.map .plain) := by
  induction code generalizing context with
  | nil => exact here.moveTo_eq.symm
  | cons plain code ih =>
      have next := emitAll_at [Inst.plain plain] here.bound
      rw [insertAll, List.foldl_cons, ← insertAll, insert_eq_emit here, ih next, List.map_cons,
        emit_emitAll]

end BlockContext

open BlockContext

variable {Op : Type}

/-! ## Straight-line visits -/

/-- The state in which a visit starts. -/
def visitStart (context : BlockContext Op) : Straight Op :=
  ⟨context.stack, context.locals, context.function.insts.length, []⟩

/-- The state after a visit that ended in `straight`. -/
def BlockContext.afterVisit (context : BlockContext Op) (block : Nat) (straight : Straight Op) :
    BlockContext Op :=
  (context.emitAll block (straight.code.map .plain)).withStack straight.stack

theorem straight_ok {α : Type} {visit : Visit Op α} {context : BlockContext Op} {block : Nat}
    {result : α × BlockContext Op} (here : context.At block) :
    straight visit context = .ok result ↔
      ∃ after, visit (visitStart context) = .ok (result.1, after) ∧
        result.2 = context.afterVisit block after := by
  obtain ⟨value, final⟩ := result
  rw [straight, ← visitStart]
  cases visit (visitStart context) with
  | error error => simp
  | ok pair =>
      obtain ⟨actual, after⟩ := pair
      simp only [insertAll_eq_emitAll here, Except.ok.injEq, Prod.mk.injEq]
      constructor
      · rintro ⟨rfl, rfl⟩
        exact ⟨after, ⟨rfl, rfl⟩, rfl⟩
      · rintro ⟨_, ⟨rfl, rfl⟩, rfl⟩
        exact ⟨rfl, rfl⟩

@[simp] theorem popStack_run (context : BlockContext Op) :
    popStack context =
      match context.stack with
      | value :: rest => .ok (value, context.withStack rest)
      | [] => .error .assertion := by
  cases context with
  | mk function insertPoint blockStack locals stack edges => cases stack <;> rfl

theorem popStack_ok {context : BlockContext Op} {value : Value} {final : BlockContext Op} :
    popStack context = .ok (value, final) ↔
      ∃ rest, context.stack = value :: rest ∧ final = context.withStack rest := by
  rw [popStack_run]
  cases context.stack with
  | nil => simp
  | cons top rest =>
      simp only [Except.ok.injEq, Prod.mk.injEq, List.cons.injEq]
      constructor
      · rintro ⟨rfl, rfl⟩
        exact ⟨rest, ⟨rfl, rfl⟩, rfl⟩
      · rintro ⟨_, ⟨rfl, rfl⟩, rfl⟩
        exact ⟨rfl, rfl⟩

theorem createICmpNE_run {context : BlockContext Op} {block : Nat} (here : context.At block)
    (value : Value) :
    createICmpNE value context =
      .ok (.inst context.function.insts.length value.type.comparison,
        context.emit block (.plain (.icmp .ne value (.null value.type)))) := by
  refine (straight_ok here).mpr ⟨_, rfl, ?_⟩
  simp [afterVisit, visitStart, withStack, emitAll]

/-! ## Builder operations -/

@[simp] theorem createBlock_run (name : String) (context : BlockContext Op) :
    createBlock name context = .ok (context.function.blocks.length, context.newBlock name) := rfl

theorem insert_run {context : BlockContext Op} {block : Nat} (here : context.At block)
    (inst : Inst Op) :
    insert inst context = .ok (context.function.insts.length, context.emit block inst) := by
  rw [insert, insert_eq_emit here]

@[simp] theorem setInsertPoint_run (block : Nat) (context : BlockContext Op) :
    setInsertPoint (some block) context = .ok ((), context.moveTo block) := rfl

@[simp] theorem clearInsertionPoint_run (context : BlockContext Op) :
    clearInsertionPoint context = .ok ((), context.clear) := rfl

theorem assertOnlyPhis_fresh {context : BlockContext Op} {block : Nat}
    (fresh : context.function.body block = []) : assertOnlyPhis block context = .ok ((), context) := by
  rw [assertOnlyPhis, bind_run_ok (get_run context)]
  simp [Function.leadingPhis, fresh]

theorem setInsertPointAtBegin_fresh {context : BlockContext Op} {block : Nat}
    (fresh : context.function.body block = []) :
    setInsertPointAtBegin block context = .ok ((), context.moveTo block) := by
  simp [setInsertPointAtBegin, moveTo, fresh]

/-- The entries that go from a stack to the phis of a label. -/
def entriesFor (phis : List PHINode) (stack : List Value) : List (Nat × Value) :=
  (phis.reverse.zip stack).map fun pair => (pair.1.id, pair.2)

theorem addIncomings_run (phis : List PHINode) (stack : List Value) (block : Option Nat)
    (context : BlockContext Op) :
    addIncomings phis stack block context =
      .ok ((), context.addIncomings (entriesFor phis stack) block) := by
  rw [addIncomings, entriesFor, List.forM_eq_forM]
  induction phis.reverse.zip stack generalizing context with
  | nil => simp [BlockContext.addIncomings]
  | cons pair pairs ih =>
      rw [List.forM_cons, bind_run_ok (by rfl), ih]
      simp [BlockContext.addIncomings, Function.addIncoming_addIncomings]

@[simp] theorem addEdge_run (kind : EdgeKind) (source target : Nat) (carried : List Value)
    (context : BlockContext Op) :
    addEdge kind (some source) target carried context =
      .ok ((), context.addEdge kind source target carried) := rfl

@[simp] theorem pushPhis_run (phis : List PHINode) (context : BlockContext Op) :
    pushPhis phis context =
      .ok ((), context.withStack ((phis.map PHINode.value).reverse ++ context.stack)) := rfl

theorem convertType_bind_ok {α : Type} {type : ValType} {next : Ty → Build Op α}
    {context : BlockContext Op} {result : α × BlockContext Op} :
    (convertType type >>= next) context = .ok result ↔
      ∃ converted, convertType? type = some converted ∧ next converted context = .ok result := by
  rw [convertType]
  cases convertType? type with
  | none => simp
  | some actual => simp

theorem popStack_bind_ok {α : Type} {next : Value → Build Op α}
    {context : BlockContext Op} {result : α × BlockContext Op} :
    (popStack >>= next) context = .ok result ↔
      ∃ value rest, context.stack = value :: rest ∧
        next value (context.withStack rest) = .ok result := by
  constructor
  · intro ran
    obtain ⟨value, middle, popped, ran⟩ := bind_ok.mp ran
    obtain ⟨rest, top, rfl⟩ := popStack_ok.mp popped
    exact ⟨value, rest, top, ran⟩
  · rintro ⟨value, rest, top, ran⟩
    rwa [bind_run_ok (popStack_ok.mpr ⟨rest, top, rfl⟩)]

/-- `convertType` on a list of types. -/
abbrev Convert (types : List ValType) (converted : List Ty) : Prop :=
  List.Forall₂ (fun type target => convertType? type = some target) types converted

/-! ## Phis of labels -/

/-- Phis with consecutive numbers. -/
def resultPhis : Nat → List Ty → List PHINode
  | _, [] => []
  | next, type :: types => ⟨next, type⟩ :: resultPhis (next + 1) types

def phiInsts : Nat → List Ty → List (Inst Op)
  | _, [] => []
  | index, type :: types => .phi index type :: phiInsts (index + 1) types

/-- The phis of a loop, whose last parameter gets the first number. -/
def paramPhis : Nat → List Ty → List PHINode → List PHINode
  | _, [], phis => phis
  | next, type :: types, phis => paramPhis (next + 1) types (⟨next, type⟩ :: phis)

def paramInsts : List Ty → List (Inst Op)
  | [] => []
  | type :: types => .phi types.length type :: paramInsts types

@[simp] theorem resultPhis_length (next : Nat) (types : List Ty) :
    (resultPhis next types).length = types.length := by
  induction types generalizing next with
  | nil => rfl
  | cons type types ih => simp [resultPhis, ih]

@[simp] theorem phiInsts_length (index : Nat) (types : List Ty) :
    (phiInsts index types : List (Inst Op)).length = types.length := by
  induction types generalizing index with
  | nil => rfl
  | cons type types ih => simp [phiInsts, ih]

@[simp] theorem paramPhis_length (next : Nat) (types : List Ty) (phis : List PHINode) :
    (paramPhis next types phis).length = types.length + phis.length := by
  induction types generalizing next phis with
  | nil => simp [paramPhis]
  | cons type types ih =>
      simp only [paramPhis, ih, List.length_cons]
      omega

@[simp] theorem paramInsts_length (types : List Ty) :
    (paramInsts types : List (Inst Op)).length = types.length := by
  induction types with
  | nil => rfl
  | cons type types ih => simp [paramInsts, ih]

theorem createResultPhis_ok {types : List ValType} {index block : Nat}
    {context final : BlockContext Op} {phis : List PHINode} (here : context.At block) :
    createResultPhis types index context = .ok (phis, final) ↔
      ∃ converted, Convert types converted ∧
        phis = resultPhis context.function.insts.length converted ∧
        final = context.emitAll block (phiInsts index converted) := by
  induction types generalizing index context phis final with
  | nil =>
      simp only [createResultPhis, pure_run, Except.ok.injEq, Prod.mk.injEq]
      constructor
      · rintro ⟨rfl, rfl⟩
        exact ⟨[], .nil, rfl, here.moveTo_eq.symm⟩
      · rintro ⟨_, ⟨⟩, rfl, rfl⟩
        exact ⟨rfl, here.moveTo_eq.symm⟩
  | cons type types ih =>
      rw [createResultPhis, convertType_bind_ok]
      constructor
      · rintro ⟨converted, found, ran⟩
        rw [bind_run_ok (insert_run here _)] at ran
        obtain ⟨rest, middle, recursive, shape⟩ := bind_ok.mp ran
        obtain ⟨others, all, rfl, rfl⟩ := (ih (emitAll_at _ here.bound)).mp recursive
        simp only [pure_run, Except.ok.injEq, Prod.mk.injEq] at shape
        obtain ⟨rfl, rfl⟩ := shape
        exact ⟨converted :: others, .cons found all, by simp [resultPhis], rfl⟩
      · rintro ⟨_, all, rfl, rfl⟩
        cases all with
        | cons found all =>
        refine ⟨_, found, ?_⟩
        rw [bind_run_ok (insert_run here _),
          bind_run_ok ((ih (emitAll_at _ here.bound)).mpr ⟨_, all, rfl, rfl⟩)]
        simp [resultPhis, phiInsts, emit_emitAll]

/-- The values on top of a stack become the first entries of a loop's phis. -/
def loopEntries (next : Nat) (count : Nat) (stack : List Value) : List (Nat × Value) :=
  (List.range' next count).zip stack

/-- The phis of a loop with their first entries, without the values they replace. -/
def BlockContext.openParams (context : BlockContext Op) (entry : Nat) (types : List Ty) :
    BlockContext Op :=
  ((context.emitAll entry (paramInsts types)).addIncomings
    (loopEntries context.function.insts.length types.length context.stack) (some entry)).withStack
      (context.stack.drop types.length)

theorem openParams_nil {context : BlockContext Op} {entry : Nat} (here : context.At entry) :
    context.openParams entry [] = context := by
  conv_rhs => rw [← here.moveTo_eq]
  simp [openParams, BlockContext.addIncomings, withStack, loopEntries, emitAll, moveTo, paramInsts]

theorem openParams_cons {context : BlockContext Op} {entry : Nat} {type : Ty} {types : List Ty}
    {value : Value} {rest : List Value} (top : context.stack = value :: rest) :
    (((context.emit entry (.phi types.length type)).addIncomings
      [(context.function.insts.length, value)] (some entry)).withStack rest).openParams entry types =
        context.openParams entry (type :: types) := by
  simp [openParams, BlockContext.addIncomings, withStack, loopEntries, emitAll, paramInsts, top,
    List.range'_succ, Function.appendAll_addIncomings, Function.addIncomings_addIncomings]

theorem createParamPhis_ok {types : List ValType} {entry : Nat}
    {context final : BlockContext Op} {before phis : List PHINode} (here : context.At entry) :
    createParamPhis entry types before context = .ok (phis, final) ↔
      ∃ converted, Convert types converted ∧ types.length ≤ context.stack.length ∧
        phis = paramPhis context.function.insts.length converted before ∧
        final = context.openParams entry converted := by
  induction types generalizing context before phis final with
  | nil =>
      simp only [createParamPhis, pure_run, Except.ok.injEq, Prod.mk.injEq]
      constructor
      · rintro ⟨rfl, rfl⟩
        exact ⟨[], .nil, Nat.zero_le _, rfl, (openParams_nil here).symm⟩
      · rintro ⟨_, ⟨⟩, _, rfl, rfl⟩
        exact ⟨rfl, (openParams_nil here).symm⟩
  | cons type types ih =>
      rw [createParamPhis, convertType_bind_ok]
      constructor
      · rintro ⟨converted, found, ran⟩
        rw [bind_run_ok (insert_run here _), popStack_bind_ok] at ran
        obtain ⟨value, rest, top, ran⟩ := ran
        rw [emitAll_stack] at top
        obtain ⟨others, all, enough, rfl, rfl⟩ := (ih ⟨rfl, by simpa using here.bound⟩).mp ran
        refine ⟨converted :: others, .cons found all, ?_, ?_, ?_⟩
        · simpa [top] using enough
        · simp [paramPhis]
        · rw [← openParams_cons top, all.length_eq]
          rfl
      · rintro ⟨_, all, enough, rfl, rfl⟩
        cases all with
        | cons found all =>
        obtain ⟨value, rest, top⟩ := List.exists_cons_of_length_pos
          (Nat.lt_of_lt_of_le (Nat.zero_lt_succ _) enough)
        refine ⟨_, found, ?_⟩
        rw [bind_run_ok (insert_run here _), popStack_bind_ok]
        refine ⟨value, rest, by simpa using top, ?_⟩
        refine (ih ⟨rfl, by simpa using here.bound⟩).mpr ⟨_, all, ?_, ?_, ?_⟩
        · simpa [top] using enough
        · simp [paramPhis]
        · rw [← openParams_cons top, all.length_eq]
          rfl

end WasmToLlvm.Block
