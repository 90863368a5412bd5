import WasmToLlvm.Block.Operations

/-!
# Labels and branches

What entering a label, leaving it and branching to it change, and when they
succeed.
-/

set_option autoImplicit false

namespace WasmToLlvm.Block

open Llvm Wasm Library BlockContext

variable {Op : Type}

/-! ## Entering a label -/

/-- The stack position of a label: below its parameters. -/
def labelPos (lty : LabelType) (stack : List Value) (decl : BlockDeclaration) : Int :=
  if lty = .func then stack.length else (stack.length : Int) - (decl.params.length : Int)

namespace BlockContext

/-- A label with phis for its results. -/
def exitLabel (context : BlockContext Op) (lty : LabelType) (exit : Nat)
    (decl : BlockDeclaration) (types : List Ty) : BreakoutTarget :=
  ⟨exit, resultPhis context.function.insts.length types, labelPos lty context.stack decl, decl, lty⟩

/-- A label whose phis stand in its exit block, entered at the end of `block`. -/
def openLabel (context : BlockContext Op) (lty : LabelType) (block exit : Nat)
    (decl : BlockDeclaration) (types : List Ty) : BlockContext Op :=
  ((context.emitAll exit (phiInsts 0 types)).moveTo block).withLabels
    (context.exitLabel lty exit decl types :: context.blockStack)

/-- A label with phis for its parameters. -/
def loopLabel (context : BlockContext Op) (entry : Nat) (decl : BlockDeclaration)
    (types : List Ty) : BreakoutTarget :=
  ⟨entry, paramPhis context.function.insts.length types [], labelPos .loop context.stack decl, decl,
    .loop⟩

/-- The label of a loop, whose phis replace its parameters. -/
def openLoop (context : BlockContext Op) (entry : Nat) (decl : BlockDeclaration)
    (types : List Ty) : BlockContext Op :=
  let label := context.loopLabel entry decl types
  ((context.openParams entry types).withStack
    ((label.phis.map PHINode.value).reverse ++ context.stack.drop types.length)).withLabels
      (label :: context.blockStack)

end BlockContext

theorem enterBlock_ok {lty : LabelType} {entry : Option Nat} {exit : Nat}
    {decl : BlockDeclaration} {context final : BlockContext Op} {pos : Int} {phis : List PHINode}
    (notElse : lty ≠ .else_) :
    enterBlock lty entry exit decl context = .ok ((pos, phis), final) ↔
      ∃ breakTo after, createLabelPhis lty entry exit decl context = .ok ((phis, breakTo), after) ∧
        pos = labelPos lty after.stack decl ∧
        final = after.withLabels (⟨breakTo, phis, pos, decl, lty⟩ :: after.blockStack) := by
  rw [enterBlock, bind_ok]
  simp only [get_bind_run, if_pos notElse, set_bind_run, pure_run, Except.ok.injEq, Prod.mk.injEq]
  constructor
  · rintro ⟨⟨created, breakTo⟩, after, labels, ⟨rfl, rfl⟩, rfl⟩
    exact ⟨breakTo, after, labels, rfl, rfl⟩
  · rintro ⟨breakTo, after, labels, rfl, rfl⟩
    exact ⟨⟨phis, breakTo⟩, after, labels, ⟨rfl, rfl⟩, rfl⟩

theorem enterBlock_label_ok {lty : LabelType} {block exit : Nat} {decl : BlockDeclaration}
    {context final : BlockContext Op} {pos : Int} {phis : List PHINode}
    (kind : lty = .block ∨ lty = .func ∨ lty = .if_)
    (bound : exit < context.function.blocks.length) (fresh : context.function.body exit = []) :
    enterBlock lty (some block) exit decl context = .ok ((pos, phis), final) ↔
      ∃ types, Convert decl.results types ∧ pos = labelPos lty context.stack decl ∧
        phis = resultPhis context.function.insts.length types ∧
        final = context.openLabel lty block exit decl types := by
  have atExit : (context.moveTo exit).At exit := moveTo_at bound
  have labelPhis : createLabelPhis lty (some block) exit decl context =
      (createResultPhis decl.results 0 >>= fun phis => setInsertPoint (some block) >>= fun _ =>
        pure (phis, exit)) (context.moveTo exit) := by
    rcases kind with rfl | rfl | rfl <;>
    · rw [createLabelPhis, bind_run_ok (assertOnlyPhis_fresh fresh),
        bind_run_ok (setInsertPointAtBegin_fresh fresh)]
  rw [enterBlock_ok (by rcases kind with rfl | rfl | rfl <;> decide), labelPhis]
  constructor
  · rintro ⟨breakTo, after, labels, rfl, rfl⟩
    obtain ⟨created, middle, results, labels⟩ := bind_ok.mp labels
    obtain ⟨types, all, rfl, rfl⟩ := (createResultPhis_ok atExit).mp results
    simp only [bind_run_ok (setInsertPoint_run _ _), pure_run, Except.ok.injEq,
      Prod.mk.injEq] at labels
    obtain ⟨⟨rfl, rfl⟩, rfl⟩ := labels
    exact ⟨types, all, rfl, rfl, rfl⟩
  · rintro ⟨types, all, rfl, rfl, rfl⟩
    have created : createResultPhis decl.results 0 (context.moveTo exit) = _ :=
      (createResultPhis_ok atExit).mpr ⟨types, all, rfl, rfl⟩
    exact ⟨exit, _, bind_run_ok created, rfl, rfl⟩

theorem enterBlock_else_ok {block exit : Nat} {decl : BlockDeclaration}
    {context final : BlockContext Op} {pos : Int} {phis : List PHINode} (here : context.At block) :
    enterBlock .else_ (some block) exit decl context = .ok ((pos, phis), final) ↔
      ∃ label rest, context.blockStack = label :: rest ∧ pos = label.pos ∧ phis = label.phis ∧
        final = context := by
  have labelPhis : createLabelPhis .else_ (some block) exit decl context =
      .ok (([], exit), context) := by
    rw [createLabelPhis, bind_run_ok (setInsertPoint_run _ _), here.moveTo_eq]
    rfl
  rw [enterBlock, bind_run_ok labelPhis]
  simp only [get_bind_run, ne_eq, not_true_eq_false, if_false]
  cases context.blockStack with
  | nil => simp
  | cons label rest =>
      simp only [pure_run, Except.ok.injEq, Prod.mk.injEq, List.cons.injEq]
      constructor
      · rintro ⟨⟨rfl, rfl⟩, rfl⟩
        exact ⟨label, rest, ⟨rfl, rfl⟩, rfl, rfl, rfl⟩
      · rintro ⟨_, _, ⟨rfl, rfl⟩, rfl, rfl, rfl⟩
        exact ⟨⟨rfl, rfl⟩, rfl⟩

theorem labelPos_openLoop {context : BlockContext Op} {decl : BlockDeclaration}
    {types : List Ty} (next : Nat) (all : Convert decl.params.reverse types)
    (enough : decl.params.length ≤ context.stack.length) :
    labelPos .loop (((paramPhis next types []).map PHINode.value).reverse ++
      context.stack.drop types.length) decl = labelPos .loop context.stack decl := by
  have sameLength : decl.params.length = types.length := by simpa using all.length_eq
  simp only [labelPos, List.length_append, List.length_reverse, List.length_map, paramPhis_length,
    List.length_drop, List.length_nil, reduceCtorEq, if_false]
  omega

theorem enterBlock_loop_ok {entry exit : Nat} {decl : BlockDeclaration}
    {context final : BlockContext Op} {pos : Int} {phis : List PHINode}
    (here : context.At entry) (fresh : context.function.body entry = []) :
    enterBlock .loop (some entry) exit decl context = .ok ((pos, phis), final) ↔
      ∃ types, Convert decl.params.reverse types ∧ decl.params.length ≤ context.stack.length ∧
        pos = labelPos .loop context.stack decl ∧
        phis = paramPhis context.function.insts.length types [] ∧
        final = context.openLoop entry decl types := by
  have labelPhis : createLabelPhis .loop (some entry) exit decl context =
      (createParamPhis entry decl.params.reverse [] >>= fun phis => pushPhis phis >>= fun _ =>
        pure (phis, entry)) context := by
    rw [createLabelPhis, bind_run_ok (assertOnlyPhis_fresh fresh),
      bind_run_ok (setInsertPointAtBegin_fresh fresh), here.moveTo_eq]
  rw [enterBlock_ok (by decide), labelPhis]
  constructor
  · rintro ⟨breakTo, after, labels, rfl, rfl⟩
    obtain ⟨created, middle, results, labels⟩ := bind_ok.mp labels
    obtain ⟨types, all, enough, rfl, rfl⟩ := (createParamPhis_ok here).mp results
    rw [List.length_reverse] at enough
    simp only [bind_run_ok (pushPhis_run _ _), pure_run, Except.ok.injEq, Prod.mk.injEq] at labels
    obtain ⟨⟨rfl, rfl⟩, rfl⟩ := labels
    have samePos := labelPos_openLoop context.function.insts.length all enough
    exact ⟨types, all, enough, samePos, rfl, by rw [BlockContext.openLoop, loopLabel, ← samePos]; rfl⟩
  · rintro ⟨types, all, enough, rfl, rfl, rfl⟩
    have samePos := labelPos_openLoop context.function.insts.length all enough
    have created : createParamPhis entry decl.params.reverse [] context = _ :=
      (createParamPhis_ok here).mpr ⟨types, all, by simpa using enough, rfl, rfl⟩
    refine ⟨entry, _, bind_run_ok created, samePos.symm, ?_⟩
    rfl

/-! ## Leaving a label -/

/-- The bottom of a stack, up to a position. -/
def bottom (pos : Int) (stack : List Value) : List Value :=
  stack.drop (stack.length - pos.toNat)

/-- The stack heights with which a label can be left. -/
structure Closable (context : BlockContext Op) (pos : Int) (arity : Nat) : Prop where
  positive : 0 ≤ pos
  enough : pos ≤ context.stack.length
  exact : context.insertPoint ≠ none → (context.stack.length : Int) = pos + arity

namespace BlockContext

/-- A body falls through to the exit of its label, if its end can be reached. -/
def flowInto (context : BlockContext Op) (exit : Nat) (phis : List PHINode) : BlockContext Op :=
  match context.getInsertBlock with
  | some block =>
      ((context.addIncomings (entriesFor phis context.stack) (some block)).addEdge .fallThrough
        block exit (carriedValues context.stack phis.length)).emit block (.br exit)
  | none =>
      { context with insertPoint := some (exit, (context.function.leadingPhis exit).length) }

/-- The first arm of a conditional leaves its results to the second one, except
when its end cannot be reached. -/
def leave (context : BlockContext Op) (lty : LabelType) (label : BreakoutTarget) :
    BlockContext Op :=
  ((context.flowInto label.target label.phis).withStack
    ((if lty = .if_ ∧ context.insertPoint ≠ none then []
      else (label.phis.map PHINode.value).reverse) ++ bottom label.pos context.stack)).withLabels
        (if lty = .if_ then context.blockStack else context.blockStack.tail)

end BlockContext

theorem flowInto_withLabels (context : BlockContext Op) (exit : Nat) (phis : List PHINode)
    (labels : List BreakoutTarget) :
    (context.withLabels labels).flowInto exit phis = (context.flowInto exit phis).withLabels labels := by
  obtain ⟨_, insertPoint, _, _, _, _⟩ := context
  cases insertPoint <;> rfl

theorem drop_eq_bottom {pos : Int} {arity : Nat} {stack : List Value} (positive : 0 ≤ pos)
    (exact : (stack.length : Int) = pos + arity) : stack.drop arity = bottom pos stack := by
  rw [bottom]
  congr 1
  omega

theorem leaveBlock_run (lty : LabelType) (exit : Nat) (decl : BlockDeclaration) (pos : Int)
    (phis : List PHINode) (context : BlockContext Op) :
    leaveBlock lty exit decl pos phis context =
      match context.getInsertBlock with
      | some block => leaveReachable lty block exit decl pos phis
          (context.withLabels (if lty = .if_ then context.blockStack else context.blockStack.tail))
      | none => leaveUnreachable lty exit pos phis
          (context.withLabels (if lty = .if_ then context.blockStack else context.blockStack.tail)) := by
  by_cases first : lty = .if_
  · simp only [leaveBlock, first, ne_eq, not_true_eq_false, if_false, if_true, get_bind_run]
    cases context.getInsertBlock <;> rfl
  · simp only [leaveBlock, ne_eq, first, not_false_eq_true, if_true, if_false]
    obtain ⟨_, insertPoint, _, _, _, _⟩ := context
    cases insertPoint <;> rfl

theorem leaveReachable_ok {lty : LabelType} {block exit : Nat} {decl : BlockDeclaration}
    {context final : BlockContext Op} {pos : Int} {phis : List PHINode}
    (here : context.At block) (kind : isBlockLike lty) :
    leaveReachable lty block exit decl pos phis context = .ok ((), final) ↔
      (context.stack.length : Int) = pos + decl.results.length ∧
        phis.length ≤ context.stack.length ∧
        final = ((context.flowInto exit phis).withStack
          ((if lty = .if_ then [] else (phis.map PHINode.value).reverse) ++
            context.stack.drop phis.length)) := by
  have flow : context.flowInto exit phis =
      ((context.addIncomings (entriesFor phis context.stack) (some block)).addEdge .fallThrough
        block exit (carriedValues context.stack phis.length)).emit block (.br exit) := by
    rw [flowInto, here.getInsertBlock]
  have at_ : ∀ kept, (((context.addIncomings (entriesFor phis context.stack) (some block)).addEdge
      .fallThrough block exit (carriedValues context.stack phis.length)).withStack kept).At block :=
    fun _ => ⟨here.point, here.bound⟩
  rw [flow]
  by_cases exact : (context.stack.length : Int) = pos + decl.results.length
  · by_cases enough : phis.length ≤ context.stack.length
    · have ran : leaveReachable lty block exit decl pos phis context = .ok ((),
          ((((context.addIncomings (entriesFor phis context.stack) (some block)).addEdge .fallThrough
            block exit (carriedValues context.stack phis.length)).emit block (.br exit)).withStack
              ((if lty = .if_ then [] else (phis.map PHINode.value).reverse) ++
                context.stack.drop phis.length))) := by
        simp only [leaveReachable, get_bind_run, kind, if_true, exact, ne_eq, not_true_eq_false,
          if_false, Nat.not_lt.mpr enough, bind_run_ok (addIncomings_run _ _ _ _), modify_bind_run]
        by_cases first : lty = .if_
        · simp only [first, not_true_eq_false, if_false, if_true,
            bind_run_ok (addEdge_run _ _ _ _ _)]
          exact bind_run_ok (insert_run (at_ _) _)
        · simp only [first, not_false_eq_true, if_false, if_true,
            bind_run_ok (pushPhis_run _ _), bind_run_ok (addEdge_run _ _ _ _ _)]
          exact bind_run_ok (insert_run (at_ _) _)
      rw [ran]
      simp [exact, enough, eq_comm]
    · simp only [leaveReachable, get_bind_run, exact, ne_eq, not_true_eq_false, if_false,
        Nat.lt_of_not_le enough, if_true, throw_bind_run, reduceCtorEq, enough, false_and,
        and_false]
  · simp only [leaveReachable, get_bind_run, exact, ne_eq, not_false_eq_true, if_true,
      throw_bind_run, reduceCtorEq, false_and]

theorem leaveUnreachable_ok {lty : LabelType} {exit : Nat}
    {context final : BlockContext Op} {pos : Int} {phis : List PHINode}
    (nowhere : context.insertPoint = none) (kind : isBlockLike lty) :
    leaveUnreachable lty exit pos phis context = .ok ((), final) ↔
      0 ≤ pos ∧ pos ≤ context.stack.length ∧
        final = (context.flowInto exit phis).withStack
          ((phis.map PHINode.value).reverse ++ bottom pos context.stack) := by
  have flow : context.flowInto exit phis =
      { context with insertPoint := some (exit, (context.function.leadingPhis exit).length) } := by
    simp only [flowInto, getInsertBlock, nowhere, Option.map_none]
  by_cases stuck : (context.stack.length : Int) < pos ∨ pos < 0
  · simp only [leaveUnreachable, kind, if_true, setInsertPointAfterPhis, modify_bind_run,
      get_bind_run, stuck, throw_bind_run, reduceCtorEq, false_iff]
    omega
  · simp only [leaveUnreachable, kind, if_true, setInsertPointAfterPhis, modify_bind_run,
      get_bind_run, stuck, if_false, set_bind_run]
    rw [pushPhis_run, flow]
    have positive : 0 ≤ pos := by omega
    have enough : pos ≤ context.stack.length := by omega
    simp only [positive, enough, true_and, Except.ok.injEq, Prod.mk.injEq]
    exact eq_comm

theorem leaveBlock_ok {lty : LabelType} {decl : BlockDeclaration}
    {context final : BlockContext Op} (label : BreakoutTarget) (placed : context.Placed) (kind : isBlockLike lty)
    (sized : label.phis.length = decl.results.length) :
    leaveBlock lty label.target decl label.pos label.phis context = .ok ((), final) ↔
      Closable context label.pos decl.results.length ∧ final = context.leave lty label := by
  rw [leaveBlock_run]
  rcases placed with nowhere | ⟨block, here⟩
  · have unplaced : context.getInsertBlock = none := by
      rw [getInsertBlock, nowhere, Option.map_none]
    simp only [unplaced]
    rw [leaveUnreachable_ok (by exact nowhere) kind, flowInto_withLabels]
    simp only [leave, nowhere, ne_eq, not_true_eq_false, and_false, if_false]
    constructor
    · rintro ⟨positive, enough, rfl⟩
      exact ⟨⟨positive, enough, fun reachable => absurd nowhere reachable⟩, rfl⟩
    · rintro ⟨closable, rfl⟩
      exact ⟨closable.positive, closable.enough, rfl⟩
  · have reachable : context.insertPoint ≠ none := by simp [here.point]
    simp only [here.getInsertBlock]
    rw [leaveReachable_ok (here.withLabels _) kind, flowInto_withLabels]
    simp only [leave, reachable, ne_eq, not_false_eq_true, and_true, withLabels_stack, sized]
    constructor
    · rintro ⟨exact, enough, rfl⟩
      have positive : 0 ≤ label.pos := by omega
      refine ⟨⟨positive, by omega, fun _ => exact⟩, ?_⟩
      rw [drop_eq_bottom positive exact]
      rfl
    · rintro ⟨closable, rfl⟩
      have exact := closable.exact reachable
      have positive := closable.positive
      refine ⟨exact, by omega, ?_⟩
      rw [drop_eq_bottom positive exact]
      rfl

theorem leaveBlock_loop_ok {exit : Nat} {decl : BlockDeclaration}
    {context final : BlockContext Op} {pos : Int} {phis : List PHINode} :
    leaveBlock .loop exit decl pos phis context = .ok ((), final) ↔
      (context.insertPoint ≠ none →
        (context.stack.length : Int) = pos + decl.results.length ∧
          phis.length ≤ context.stack.length) ∧
      final = context.withLabels context.blockStack.tail := by
  rw [leaveBlock_run]
  cases point : context.insertPoint with
  | none =>
      have label : context.getInsertBlock = none := by rw [getInsertBlock, point, Option.map_none]
      simp only [label]
      simp [leaveUnreachable, isBlockLike, eq_comm]
  | some place =>
      have label : context.getInsertBlock = some place.1 := by
        rw [getInsertBlock, point, Option.map_some]
      simp only [label]
      by_cases exact : (context.stack.length : Int) = pos + decl.results.length
      · by_cases enough : phis.length ≤ context.stack.length
        · simp [leaveReachable, isBlockLike, exact, enough, eq_comm, Nat.not_lt.mpr enough]
        · simp only [leaveReachable, get_bind_run, withLabels_stack, exact, ne_eq, not_true_eq_false,
            if_false, Nat.lt_of_not_le enough, if_true, throw_bind_run, reduceCtorEq, enough]
          simp
      · simp [leaveReachable, exact]
/-! ## Blocks as a whole -/

theorem exitLabel_sized (context : BlockContext Op) (lty : LabelType) (exit : Nat)
    {decl : BlockDeclaration} {types : List Ty} (all : Convert decl.results types) :
    (context.exitLabel lty exit decl types).phis.length = decl.results.length := by
  simp [exitLabel, all.length_eq]

theorem loopLabel_sized (context : BlockContext Op) (entry : Nat)
    {decl : BlockDeclaration} {types : List Ty} (all : Convert decl.params.reverse types) :
    (context.loopLabel entry decl types).phis.length = decl.params.length := by
  simp [loopLabel, ← all.length_eq]

theorem visitBlock_ok {lty : LabelType} {entry : Option Nat} {exit : Nat}
    {decl : BlockDeclaration} {visitBody : Build Op Unit} {context final : BlockContext Op} :
    visitBlock lty entry exit decl visitBody context = .ok ((), final) ↔
      ∃ pos phis opened inner, enterBlock lty entry exit decl context = .ok ((pos, phis), opened) ∧
        visitBody opened = .ok ((), inner) ∧
        leaveBlock lty exit decl pos phis inner = .ok ((), final) := by
  rw [visitBlock, bind_ok]
  constructor
  · rintro ⟨⟨pos, phis⟩, opened, entered, ran⟩
    obtain ⟨_, inner, body, left⟩ := bind_ok.mp ran
    exact ⟨pos, phis, opened, inner, entered, body, left⟩
  · rintro ⟨pos, phis, opened, inner, entered, body, left⟩
    exact ⟨(pos, phis), opened, entered, bind_ok.mpr ⟨(), inner, body, left⟩⟩

theorem visitBlock_label_ok {lty : LabelType} {block exit : Nat} {decl : BlockDeclaration}
    {visitBody : Build Op Unit} {context final : BlockContext Op}
    (kind : lty = .block ∨ lty = .func ∨ lty = .if_)
    (bound : exit < context.function.blocks.length) (fresh : context.function.body exit = [])
    (lasting : ∀ types inner,
      visitBody (context.openLabel lty block exit decl types) = .ok ((), inner) → inner.Placed) :
    visitBlock lty (some block) exit decl visitBody context = .ok ((), final) ↔
      ∃ types inner, Convert decl.results types ∧
        visitBody (context.openLabel lty block exit decl types) = .ok ((), inner) ∧
        Closable inner (context.exitLabel lty exit decl types).pos decl.results.length ∧
        final = inner.leave lty (context.exitLabel lty exit decl types) := by
  have blockLike : isBlockLike lty := by rcases kind with rfl | rfl | rfl <;> rfl
  rw [visitBlock_ok]
  constructor
  · rintro ⟨pos, phis, opened, inner, entered, body, ran⟩
    obtain ⟨types, all, rfl, rfl, rfl⟩ := (enterBlock_label_ok kind bound fresh).mp entered
    obtain ⟨closable, rfl⟩ := (leaveBlock_ok (context.exitLabel lty exit decl types)
      (lasting types inner body) blockLike (exitLabel_sized context lty exit all)).mp ran
    exact ⟨types, inner, all, body, closable, rfl⟩
  · rintro ⟨types, inner, all, body, closed⟩
    exact ⟨_, _, _, inner, (enterBlock_label_ok kind bound fresh).mpr ⟨types, all, rfl, rfl, rfl⟩,
      body, (leaveBlock_ok (context.exitLabel lty exit decl types) (lasting types inner body)
        blockLike (exitLabel_sized context lty exit all)).mpr closed⟩

theorem visitBlock_else_ok {block : Nat} {decl : BlockDeclaration} {label : BreakoutTarget}
    {labels : List BreakoutTarget} {visitBody : Build Op Unit} {context final : BlockContext Op}
    (here : context.At block) (top : context.blockStack = label :: labels)
    (sized : label.phis.length = decl.results.length)
    (lasting : ∀ inner, visitBody context = .ok ((), inner) → inner.Placed) :
    visitBlock .else_ (some block) label.target decl visitBody context = .ok ((), final) ↔
      ∃ inner, visitBody context = .ok ((), inner) ∧
        Closable inner label.pos decl.results.length ∧ final = inner.leave .else_ label := by
  rw [visitBlock_ok]
  constructor
  · rintro ⟨pos, phis, opened, inner, entered, body, ran⟩
    obtain ⟨found, _, same, rfl, rfl, rfl⟩ := (enterBlock_else_ok here).mp entered
    obtain ⟨rfl, rfl⟩ := List.cons.inj (same.symm.trans top)
    obtain ⟨closable, rfl⟩ := (leaveBlock_ok found (lasting inner body) (by rfl) sized).mp ran
    exact ⟨inner, body, closable, rfl⟩
  · rintro ⟨inner, body, closed⟩
    exact ⟨_, _, _, inner, (enterBlock_else_ok here).mpr ⟨label, labels, top, rfl, rfl, rfl⟩,
      body, (leaveBlock_ok label (lasting inner body) (by rfl) sized).mpr closed⟩

theorem visitBlock_loop_ok {entry exit : Nat} {decl : BlockDeclaration}
    {visitBody : Build Op Unit} {context final : BlockContext Op}
    (here : context.At entry) (fresh : context.function.body entry = []) :
    visitBlock .loop (some entry) exit decl visitBody context = .ok ((), final) ↔
      ∃ types inner, Convert decl.params.reverse types ∧
        decl.params.length ≤ context.stack.length ∧
        visitBody (context.openLoop entry decl types) = .ok ((), inner) ∧
        (inner.insertPoint ≠ none →
          (inner.stack.length : Int) = labelPos .loop context.stack decl + decl.results.length ∧
            decl.params.length ≤ inner.stack.length) ∧
        final = inner.withLabels inner.blockStack.tail := by
  rw [visitBlock_ok]
  constructor
  · rintro ⟨pos, phis, opened, inner, entered, body, ran⟩
    obtain ⟨types, all, enough, rfl, rfl, rfl⟩ := (enterBlock_loop_ok here fresh).mp entered
    have sized := loopLabel_sized context entry all
    obtain ⟨closable, rfl⟩ := leaveBlock_loop_ok.mp ran
    exact ⟨types, inner, all, enough, body, sized ▸ closable, rfl⟩
  · rintro ⟨types, inner, all, enough, body, closable, rfl⟩
    have sized := loopLabel_sized context entry all
    exact ⟨_, _, _, inner, (enterBlock_loop_ok here fresh).mpr
      ⟨types, all, enough, rfl, rfl, rfl⟩, body, leaveBlock_loop_ok.mpr ⟨sized ▸ closable, rfl⟩⟩

/-! ## Branches -/

theorem labelAt_bind_ok {α : Type} {index : Nat} {next : BreakoutTarget → Build Op α}
    {context : BlockContext Op} {result : α × BlockContext Op} :
    (labelAt index >>= next) context = .ok result ↔
      ∃ label, context.blockStack.reverse[index]? = some label ∧
        next label context = .ok result := by
  rw [bind_ok, labelAt, get_bind_run]
  cases context.blockStack.reverse[index]? with
  | none =>
      refine iff_of_false ?_ (by simp)
      rintro ⟨_, _, failed, _⟩
      cases failed
  | some label => simp

theorem labelIndex_bind_ok {α : Type} {depth : Nat} {error : Abort} {next : Nat → Build Op α}
    {context : BlockContext Op} {result : α × BlockContext Op} :
    (labelIndex depth error >>= next) context = .ok result ↔
      depth < context.blockStack.length ∧
        next (context.blockStack.length - (depth + 1)) context = .ok result := by
  rw [bind_ok]
  simp only [labelIndex, get_bind_run]
  by_cases short : context.blockStack.length < depth + 1
  · simp only [short, if_true, throw_bind_run, reduceCtorEq, false_and, exists_false, false_iff,
      not_and]
    intro deep
    omega
  · have deep : depth < context.blockStack.length := by omega
    simp [short, deep]

/-- The index that `labelIndex` computes finds the label at the depth. -/
theorem getElem?_labelIndex {depth : Nat} {labels : List BreakoutTarget}
    (deep : depth < labels.length) :
    labels.reverse[labels.length - (depth + 1)]? = labels[depth]? := by
  rw [List.getElem?_reverse (by omega)]
  congr 1
  omega

theorem label_bind_ok {α : Type} {depth : Nat} {error : Abort} {next : BreakoutTarget → Build Op α}
    {context : BlockContext Op} {result : α × BlockContext Op} :
    (labelIndex depth error >>= fun index => labelAt index >>= next) context = .ok result ↔
      ∃ label, context.blockStack[depth]? = some label ∧ next label context = .ok result := by
  rw [labelIndex_bind_ok, labelAt_bind_ok]
  constructor
  · rintro ⟨deep, label, found, ran⟩
    exact ⟨label, by rwa [getElem?_labelIndex deep] at found, ran⟩
  · rintro ⟨label, found, ran⟩
    have deep := (List.getElem?_eq_some_iff.mp found).1
    exact ⟨deep, label, by rwa [getElem?_labelIndex deep], ran⟩

/-- A branch passes the values on top of the stack to the phis of its label. -/
def BlockContext.branchTo (context : BlockContext Op) (block : Nat) (label : BreakoutTarget) :
    BlockContext Op :=
  (context.addIncomings (entriesFor label.phis context.stack) (some block)).addEdge .branch block
    label.target (carriedValues context.stack label.phis.length)

theorem BlockContext.At.branchTo {context : BlockContext Op} {block : Nat} (here : context.At block)
    (label : BreakoutTarget) : (context.branchTo block label).At block :=
  ⟨here.point, here.bound⟩

/-- The label at a branch depth, with enough values on the stack for its phis. -/
structure Reaches (context : BlockContext Op) (depth : Nat) (label : BreakoutTarget) : Prop where
  found : context.blockStack[depth]? = some label
  enough : label.phis.length ≤ context.stack.length

/-- `visitBr` also asserts that the outermost label belongs to the function. -/
structure Branches (context : BlockContext Op) (depth : Nat) (label : BreakoutTarget) : Prop
    extends Reaches context depth label where
  outermost : depth + 1 = context.blockStack.length → label.lty = .func

theorem visitBr_ok {kind : BrKind} {depth block : Nat} {condition : Option Value}
    {nextBlock : Option Nat} {context : BlockContext Op} {result : Nat × BlockContext Op}
    (here : context.At block) (deep : depth < context.blockStack.length) :
    visitBr kind (context.blockStack.length - (depth + 1)) condition nextBlock context = .ok result ↔
      ∃ label, Branches context depth label ∧
        createBranch kind label.target condition nextBlock (context.branchTo block label) =
          .ok result := by
  rw [visitBr, labelAt_bind_ok, getElem?_labelIndex deep]
  refine exists_congr fun label => ?_
  by_cases outermost : context.blockStack.length - (depth + 1) = 0 ∧ label.lty ≠ .func
  · simp only [if_pos outermost, throw_bind_run, reduceCtorEq, and_false, false_iff, not_and]
    intro branches
    exact absurd (branches.outermost (by omega)) outermost.2
  · by_cases enough : label.phis.length ≤ context.stack.length
    · simp only [outermost, if_false, get_bind_run, Nat.not_lt.mpr enough, here.getInsertBlock,
        bind_run_ok (addIncomings_run _ _ _ _), bind_run_ok (addEdge_run _ _ _ _ _)]
      refine and_congr_left fun _ =>
        ⟨fun found => ⟨⟨found, enough⟩, ?_⟩, fun branches => branches.found⟩
      intro last
      by_contra different
      exact outermost ⟨by omega, different⟩
    · simp only [outermost, if_false, get_bind_run, Nat.lt_of_not_le enough, if_true,
        throw_bind_run, reduceCtorEq, and_false, false_iff, not_and]
      intro branches
      exact absurd branches.enough enough

theorem createBranch_br {kind : BrKind} {target block : Nat} {context : BlockContext Op}
    (here : context.At block) (unconditional : kind = .br ∨ kind = .return_) :
    createBranch kind target none none context =
      .ok (context.function.insts.length, (context.emit block (.br target)).clear) := by
  rcases unconditional with rfl | rfl <;>
  · simp only [createBranch, ne_eq, reduceCtorEq, not_true_eq_false, not_false_eq_true, false_and,
      and_false, if_false]
    rw [bind_run_ok (insert_run here _)]
    rfl

theorem createBranch_brIf {target next block : Nat} {condition : Value}
    {context : BlockContext Op} (here : context.At block) :
    createBranch .brIf target (some condition) (some next) context =
      .ok (context.function.insts.length,
        (context.addEdge .arm block next []).emit block (.condBr condition target next)) := by
  simp only [createBranch, ne_eq, not_true_eq_false, if_false, get_bind_run, here.getInsertBlock,
    bind_run_ok (addEdge_run _ _ _ _ _)]
  exact insert_run (here.addEdge _ _ _ _) _

theorem createBranch_brTable {target block : Nat} {condition : Value}
    {context : BlockContext Op} (here : context.At block) :
    createBranch .brTable target (some condition) none context =
      .ok (context.function.insts.length,
        (context.emit block (.switch condition target)).clear) := by
  simp only [createBranch, ne_eq, not_true_eq_false, if_false]
  rw [bind_run_ok (insert_run here _)]
  rfl

namespace BlockContext

/-- One explicit target of a `br_table`. -/
def addTarget (context : BlockContext Op) (switch source i : Nat) (label : BreakoutTarget) :
    BlockContext Op :=
  ((context.addCase switch i label.target).addIncomings (entriesFor label.phis context.stack)
    none).addEdge .tableCase source label.target (carriedValues context.stack label.phis.length)

def addTargets (context : BlockContext Op) (switch source : Nat) :
    List BreakoutTarget → Nat → BlockContext Op
  | [], _ => context
  | label :: labels, i => (context.addTarget switch source i label).addTargets switch source labels (i + 1)

end BlockContext

theorem Reaches.of_mem {context : BlockContext Op} {depths : List Nat} {label : BreakoutTarget}
    {labels : List BreakoutTarget} (all : List.Forall₂ (Reaches context) depths labels)
    (member : label ∈ labels) : ∃ depth ∈ depths, Reaches context depth label := by
  induction all with
  | nil => cases member
  | cons reaches all ih =>
      rcases List.mem_cons.mp member with rfl | member
      · exact ⟨_, List.mem_cons_self, reaches⟩
      · obtain ⟨depth, inDepths, found⟩ := ih member
        exact ⟨depth, List.mem_cons_of_mem _ inDepths, found⟩

theorem visitTargets_cons_ok {switch source i depth : Nat} {depths : List Nat}
    {context final : BlockContext Op} (nowhere : context.insertPoint = none) :
    visitTargets switch (some source) (depth :: depths) i context = .ok ((), final) ↔
      ∃ label, Reaches context depth label ∧
        visitTargets switch (some source) depths (i + 1) (context.addTarget switch source i label) =
          .ok ((), final) := by
  have unplaced : context.getInsertBlock = none := by rw [getInsertBlock, nowhere, Option.map_none]
  rw [visitTargets, label_bind_ok]
  refine exists_congr fun label => ?_
  by_cases enough : label.phis.length ≤ context.stack.length
  · simp only [modify_bind_run, get_bind_run, Nat.not_lt.mpr enough, if_false,
      bind_run_ok (addIncomings_run _ _ _ _), bind_run_ok (addEdge_run _ _ _ _ _)]
    refine and_congr ⟨fun found => ⟨found, enough⟩, Reaches.found⟩ ?_
    rw [addTarget, ← unplaced]
    rfl
  · simp only [modify_bind_run, get_bind_run, Nat.lt_of_not_le enough, if_true, throw_bind_run,
      reduceCtorEq, and_false, false_iff, not_and]
    intro reaches
    exact absurd reaches.enough enough

theorem visitTargets_ok {switch source i : Nat} {depths : List Nat}
    {context final : BlockContext Op} (nowhere : context.insertPoint = none) :
    visitTargets switch (some source) depths i context = .ok ((), final) ↔
      ∃ labels, List.Forall₂ (Reaches context) depths labels ∧
        final = context.addTargets switch source labels i := by
  induction depths generalizing i context with
  | nil =>
      simp only [visitTargets, pure_run, Except.ok.injEq, Prod.mk.injEq, true_and,
        List.forall₂_nil_left_iff, exists_eq_left, BlockContext.addTargets]
      exact eq_comm
  | cons depth depths ih =>
      rw [visitTargets_cons_ok nowhere]
      constructor
      · rintro ⟨label, reaches, ran⟩
        obtain ⟨labels, all, rfl⟩ := (ih (by exact nowhere)).mp ran
        exact ⟨label :: labels, .cons reaches (all.imp fun _ _ found => ⟨found.found, found.enough⟩),
          rfl⟩
      · rintro ⟨_, all, rfl⟩
        cases all with
        | cons reaches all =>
        refine ⟨_, reaches, (ih (by exact nowhere)).mpr ⟨_, ?_, rfl⟩⟩
        exact all.imp fun _ _ found => ⟨found.found, found.enough⟩

end WasmToLlvm.Block
