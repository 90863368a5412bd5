import WasmToLlvm.Block.Phis
import WasmToLlvm.Wasm.Validation

/-!
# Agreement of phis

Which bodies have phis that agree with the control-flow graph: those in which no
loop with parameters is reached, and no `br_table` with an explicit target whose
label carries values.
-/

set_option autoImplicit false

namespace WasmToLlvm.Wasm

mutual

/-- `arities` are those of the enclosing labels, the innermost first. -/
def Expr.phisSafe {Instr : Type} (arities : List Nat) : Expr Instr → Bool
  | .block decl exprs => ExprList.phisSafe (decl.results.length :: arities) exprs
  | .loop decl exprs => decl.params.isEmpty && ExprList.phisSafe (decl.params.length :: arities) exprs
  | .if_ decl trueExprs falseExprs =>
      ExprList.phisSafe (decl.results.length :: arities) trueExprs &&
        ExprList.phisSafe (decl.results.length :: arities) falseExprs
  | .brTable targets _ => targets.all fun depth => arities[depth]? == some 0
  | _ => true

/-- Code behind an unconditional transfer does not count. -/
def ExprList.phisSafe {Instr : Type} (arities : List Nat) : List (Expr Instr) → Bool
  | [] => true
  | expr :: exprs => Expr.phisSafe arities expr && (Expr.diverges expr || ExprList.phisSafe arities exprs)

end

def Func.phisSafe {Instr : Type} (func : Func Instr) : Bool :=
  ExprList.phisSafe [func.decl.results.length] func.exprs

end WasmToLlvm.Wasm

namespace WasmToLlvm.Block

open Llvm Wasm Library BlockContext

/-- The phi entries for an edge name the block that it leaves. -/
def Edge.Faithful (edge : Edge) : Prop :=
  edge.carried = [] ∨ edge.recorded = some edge.source

/-- Edges that carry values have phis to carry them to, and the edge into a loop
comes from outside. -/
structure Borne {Op : Type} (function : Function Op) (edges : List Edge) : Prop where
  phis : ∀ edge ∈ edges, edge.carried ≠ [] → ∃ id type, PhiAt function edge.target id 0 type
  outside : ∀ edge ∈ edges, edge.kind = .loopEntry → edge.source ≠ edge.target

section Graph

variable {Op : Type} {function larger : Function Op} {edges more : List Edge} {block : Nat}
  {labels : List BreakoutTarget}

theorem PhiAt.grows {id index : Nat} {type : Ty} (phi : PhiAt function block id index type)
    (grows : function.Grows larger) : PhiAt larger block id index type :=
  ⟨grows.member phi.member, grows.inst phi.found⟩

/-- The predecessors of a block are the sources of the edges into it. -/
theorem Traced.predecessors (traced : Traced function edges) (block : Nat) :
    (function.predecessors block).Perm ((edgesInto edges block).map Edge.source) := by
  have bounded : ∀ edge ∈ edgesInto edges block, edge.source < function.blocks.length :=
    fun edge member => (traced.bounded edge (List.mem_filter.mp member).1).1
  refine (List.Perm.of_eq ?_).trans ((flatMap_range_perm Edge.source bounded).map Edge.source)
  rw [Function.predecessors, List.map_flatMap]
  congr 1
  funext source
  rw [traced.graph source, edgesFrom, edgesInto, List.filter_map, List.map_map, List.filter_filter,
    List.filter_filter]
  have order : (fun edge : Edge => (edge.source == source && edge.target == block)) =
      fun edge => (((fun target => target == block) ∘ Edge.target) edge && edge.source == source) := by
    funext edge
    exact Bool.and_comm _ _
  rw [order]
  refine List.map_congr_left fun edge member => ?_
  simpa using (eq_of_beq (Bool.and_eq_true_iff.mp (List.mem_filter.mp member).2).2).symm

theorem Borne.append (borne : Borne function edges) (logged : Logged function (edges ++ more) labels)
    (carried : ∀ edge ∈ more, edge.carried = [] ∨
      ∃ label ∈ labels, edge.target = label.target ∧ edge.carried.length = label.phis.length)
    (outside : ∀ edge ∈ more, edge.kind = .loopEntry → edge.source ≠ edge.target) :
    Borne function (edges ++ more) where
  phis := by
    intro edge member nonempty
    rcases List.mem_append.mp member with member | member
    · exact borne.phis edge member nonempty
    · rcases carried edge member with empty | ⟨label, inLabels, goal, sized⟩
      · exact absurd empty nonempty
      · have positive : 0 < label.phis.length := sized ▸ List.length_pos_iff.mpr nonempty
        rw [goal]
        exact ⟨_, _, ((logged.labelled label inLabels).phis _ 0 _).mpr
          (List.getElem?_eq_getElem positive)⟩
  outside := by
    intro edge member entry
    rcases List.mem_append.mp member with member | member
    · exact borne.outside edge member entry
    · exact outside edge member entry

theorem Borne.grows (borne : Borne function edges) (grows : function.Grows larger) :
    Borne larger edges where
  phis := by
    intro edge member nonempty
    obtain ⟨id, type, phi⟩ := borne.phis edge member nonempty
    exact ⟨id, type, phi.grows grows⟩
  outside := borne.outside

end Graph

/-! ## Agreement and the edges -/

section Agreement

variable {Op : Type} {context : BlockContext Op} {labels : List BreakoutTarget}

/-- A loop's own block as the source of the edge into the loop makes one entry too
many for it, and an entry without a block is one that no edge has. -/
theorem PhisAgree.faithful (agree : PhisAgree context)
    (logged : Logged context.function context.edges labels)
    (borne : Borne context.function context.edges) : ∀ edge ∈ context.edges, edge.Faithful := by
  intro edge member
  by_cases nonempty : edge.carried = []
  · exact .inl nonempty
  right
  obtain ⟨id, type, phi⟩ := borne.phis edge member nonempty
  have into : edge ∈ edgesInto context.edges edge.target := by simp [edgesInto, member]
  have recorded : (context.function.entries id).map (·.2) =
      (edgesInto context.edges edge.target).map Edge.recorded := by
    have both := congrArg (List.map Prod.snd) (logged.recorded _ _ _ _ phi)
    rw [List.map_map, List.map_map] at both
    exact both
  have same : ((edgesInto context.edges edge.target).map Edge.recorded).Perm
      ((edgesInto context.edges edge.target).map fun other => some other.source) := by
    rw [← recorded]
    refine (agree.blocks _ _ _ _ phi).trans ?_
    have sources := (logged.traced.predecessors edge.target).map some
    rwa [List.map_map] at sources
  have named : ∀ other ∈ edgesInto context.edges edge.target, other.recorded ≠ none := by
    intro other inside missing
    have absent : none ∈ (edgesInto context.edges edge.target).map Edge.recorded :=
      missing ▸ List.mem_map_of_mem inside
    have present := same.subset absent
    simp at present
  have weaker : ∀ other ∈ edgesInto context.edges edge.target,
      some other.source = some edge.target → other.recorded = some edge.target := by
    intro other inside here
    have goal : other.target = edge.target := by simpa using (List.mem_filter.mp inside).2
    have present := named other inside
    cases kind : other.kind <;> simp_all [Edge.recorded]
  have loops := map_perm_pointwise (· = some edge.target) same weaker edge into
  have outside := borne.outside edge member
  have present := named edge into
  cases kind : edge.kind <;> simp_all [Edge.recorded]

theorem phisAgree_of_faithful (logged : Logged context.function context.edges labels)
    (faithful : ∀ edge ∈ context.edges, edge.Faithful) : PhisAgree context := by
  have values : ∀ block id index type, PhiAt context.function block id index type →
      ((context.function.entries id).map fun entry => (some entry.1, entry.2)) =
        ((edgesInto context.edges block).map fun edge => (edge.carried[index]?, some edge.source)) := by
    intro block id index type phi
    rw [logged.recorded block id index type phi]
    refine List.map_congr_left fun edge member => ?_
    rcases faithful edge (List.mem_filter.mp member).1 with empty | named
    · -- the entry for the edge has a value, so the edge carries one
      have recorded := logged.recorded block id index type phi
      have inside := List.mem_map_of_mem (f := fun edge : Edge => (edge.carried[index]?, edge.recorded))
        member
      rw [← recorded, empty] at inside
      simp at inside
    · rw [named]
  refine ⟨fun block _ => logged.traced.graph block, ?_,
    fun block id index type phi => List.Perm.of_eq (values block id index type phi)⟩
  intro block id index type phi
  have both := congrArg (List.map Prod.snd) (values block id index type phi)
  rw [List.map_map, List.map_map] at both
  have sources := (logged.traced.predecessors block).map some
  rw [List.map_map] at sources
  exact (List.Perm.of_eq both).trans sources.symm

end Agreement

/-! ## Runs -/

theorem carriedValues_length {stack : List Value} {arity : Nat} (enough : arity ≤ stack.length) :
    (carriedValues stack arity).length = arity := by
  rw [carriedValues, List.length_reverse, List.length_take]
  exact Nat.min_eq_left enough

namespace BlockContext

variable {Op : Type}

/-- The numbers of values that the labels carry, the innermost label first. -/
def labelArities (context : BlockContext Op) : List Nat :=
  context.blockStack.map fun label => label.phis.length

abbrev Borne (context : BlockContext Op) : Prop :=
  Block.Borne context.function context.edges

def Faithful (context : BlockContext Op) : Prop :=
  ∀ edge ∈ context.edges, edge.Faithful

theorem addTargets_edges (context : BlockContext Op) (switch source i : Nat)
    (labels : List BreakoutTarget) :
    (context.addTargets switch source labels i).edges = context.edges ++ labels.map fun label =>
      ⟨.tableCase, source, label.target, carriedValues context.stack label.phis.length⟩ := by
  induction labels generalizing context i with
  | nil => simp [addTargets]
  | cons label labels ih =>
      rw [addTargets, ih]
      simp [addTarget]

end BlockContext

variable {I : InstructionSet}

/-- The edges that a step makes. -/
structure StepEdges (context : BlockContext I.Op) (expr : Expr I.Instr) (more : List Edge) :
    Prop where
  carried : ∀ edge ∈ more, edge.carried = [] ∨ ∃ label ∈ context.blockStack,
    edge.target = label.target ∧ edge.carried.length = label.phis.length
  inside : ∀ edge ∈ more, edge.kind ≠ .loopEntry
  faithful : (∀ edge ∈ more, edge.Faithful) ↔ expr.phisSafe context.labelArities

theorem stepEdges_nil {context : BlockContext I.Op} {expr : Expr I.Instr}
    (safe : expr.phisSafe context.labelArities = true) : StepEdges context expr [] :=
  ⟨by simp, by simp, by simp [safe]⟩

theorem stepEdges_branch {context : BlockContext I.Op} {expr : Expr I.Instr} {depth : Nat}
    {label : BreakoutTarget} {stack : List Value} {more : List Edge} (block : Nat)
    (reaches : Reaches (context.withStack stack) depth label)
    (others : StepEdges context expr more) :
    StepEdges context expr
      (⟨.branch, block, label.target, carriedValues stack label.phis.length⟩ :: more) where
  carried := by
    intro edge member
    rcases List.mem_cons.mp member with rfl | member
    · exact .inr ⟨label, List.mem_of_getElem? reaches.found, rfl,
        carriedValues_length reaches.enough⟩
    · exact others.carried edge member
  inside := by
    intro edge member
    rcases List.mem_cons.mp member with rfl | member
    · simp
    · exact others.inside edge member
  faithful := by
    rw [← others.faithful, List.forall_mem_cons]
    exact and_iff_right (.inr rfl)

theorem faithful_tableCase {stack : List Value} {label : BreakoutTarget} {block : Nat}
    (enough : label.phis.length ≤ stack.length) :
    (Edge.mk .tableCase block label.target (carriedValues stack label.phis.length)).Faithful ↔
      label.phis.length = 0 := by
  rw [Edge.Faithful]
  simp only [Edge.recorded, reduceCtorEq, or_false]
  rw [← List.length_eq_zero_iff, carriedValues_length enough]

theorem stepEdges_table {context : BlockContext I.Op} {targets : List Nat} {default : Nat}
    {labels : List BreakoutTarget} {stack : List Value} (block : Nat)
    (all : List.Forall₂ (Reaches (context.withStack stack)) targets labels) :
    StepEdges context (.brTable targets default) (labels.map fun label =>
      ⟨.tableCase, block, label.target, carriedValues stack label.phis.length⟩) where
  carried := by
    intro edge member
    obtain ⟨label, inLabels, rfl⟩ := List.mem_map.mp member
    obtain ⟨depth, _, reaches⟩ := Reaches.of_mem all inLabels
    exact .inr ⟨label, List.mem_of_getElem? reaches.found, rfl,
      carriedValues_length reaches.enough⟩
  inside := by
    intro edge member
    obtain ⟨label, _, rfl⟩ := List.mem_map.mp member
    simp
  faithful := by
    rw [List.forall_mem_map, Expr.phisSafe]
    induction all with
    | nil => simp
    | @cons depth label depths labels reaches all ih =>
        have found : context.labelArities[depth]? = some label.phis.length := by
          rw [labelArities, List.getElem?_map]
          exact congrArg (Option.map _) reaches.found
        have enough : label.phis.length ≤ stack.length := reaches.enough
        rw [List.forall_mem_cons, ih, List.all_cons, Bool.and_eq_true, found,
          faithful_tableCase enough]
        simp

theorem Step.edges {context next : BlockContext I.Op} {block : Nat} {expr : Expr I.Instr}
    (step : Step I context block expr next) :
    ∃ more, next.edges = context.edges ++ more ∧ StepEdges context expr more := by
  cases step with
  | straight code _ =>
      refine ⟨[], (List.append_nil _).symm, stepEdges_nil ?_⟩
      cases expr <;> first | rfl | cases code
  | unreachable => exact ⟨[], (List.append_nil _).symm, stepEdges_nil (by rfl)⟩
  | br branches => exact ⟨_, rfl, stepEdges_branch _ branches.toReaches (stepEdges_nil (by rfl))⟩
  | return_ _ branches =>
      exact ⟨_, rfl, stepEdges_branch _ branches.toReaches (stepEdges_nil (by rfl))⟩
  | @brIf _ value rest label top branches =>
      refine ⟨_, List.append_assoc _ _ _, stepEdges_branch _ branches.toReaches ?_⟩
      exact ⟨by simp, by simp, by simp [Edge.Faithful, Expr.phisSafe]⟩
  | @brTable _ _ value rest label labels top branches all =>
      refine ⟨_, ?_, stepEdges_branch block branches.toReaches (stepEdges_table block all)⟩
      rw [addTargets_edges]
      simp [startTable, branchTo]

theorem Step.borne {context next : BlockContext I.Op} {block : Nat} {expr : Expr I.Instr}
    (step : Step I context block expr next) (here : context.At block) (logged : context.Logged)
    (borne : context.Borne) : next.Borne := by
  obtain ⟨more, edges, stepEdges⟩ := step.edges
  have after := step.logged here logged
  rw [BlockContext.Logged, edges] at after
  rw [BlockContext.Borne, edges]
  refine (borne.grows (step.grows (.refl _))).append after ?_
    fun edge member entry => absurd entry (stepEdges.inside edge member)
  rw [step.blockStack]
  exact stepEdges.carried

/-! ## Blocks -/

section Blocks

variable {context inner : BlockContext I.Op} {block : Nat} {decl : BlockDeclaration} {types : List Ty}

theorem startBlock_borne (borne : context.Borne) : (context.startBlock block decl types).Borne :=
  borne.grows (startBlock_grows (.refl _) _ _ _)

theorem startThen_borne (here : context.At block) (logged : context.Logged) (borne : context.Borne)
    (value : Value) (rest : List Value) : (context.startThen block value rest decl types).Borne := by
  have after : (context.startThen block value rest decl types).Logged :=
    startThen_logged here logged value rest
  have edges : (context.startThen block value rest decl types).edges =
      context.edges ++ [⟨.arm, block, context.function.blocks.length, []⟩,
        ⟨.arm, block, context.function.blocks.length + 1, []⟩] := List.append_assoc _ _ _
  rw [BlockContext.Logged, edges] at after
  rw [BlockContext.Borne, edges]
  exact (borne.grows (startThen_grows (.refl _) _ _ _ _ _)).append after (by simp) (by simp)

theorem startLoop_borne (here : context.At block) (logged : context.Logged) (borne : context.Borne)
    (all : Convert decl.params.reverse types) (enough : decl.params.length ≤ context.stack.length) :
    (context.startLoop block decl types).Borne := by
  have after := startLoop_logged here logged all enough
  refine (borne.grows (startLoop_grows (.refl _) _ _ _)).append after ?_ ?_
  · intro edge member
    obtain rfl := List.mem_singleton.mp member
    refine .inr ⟨_, List.mem_cons_self, rfl, ?_⟩
    rw [loopLabel_sized _ _ all]
    exact carriedValues_length enough
  · intro edge member _
    obtain rfl := List.mem_singleton.mp member
    exact Nat.ne_of_lt here.bound

theorem flowInto_borne {label : BreakoutTarget} {arity : Nat} (placed : inner.Placed)
    (logged : inner.Logged) (borne : inner.Borne) (member : label ∈ inner.blockStack)
    (sized : label.phis.length = arity) (closable : Closable inner label.pos arity) :
    (inner.flowInto label.target label.phis).Borne := by
  have after := flowInto_logged placed logged (logged.labelled label member) sized closable
  have grown := borne.grows (flowInto_grows (.refl _) label.target label.phis)
  rcases placed with nowhere | ⟨block, here⟩
  · have unplaced : inner.getInsertBlock = none := by simp [getInsertBlock, nowhere]
    rw [flowInto, unplaced]
    exact borne
  · have edges : (inner.flowInto label.target label.phis).edges = inner.edges ++
        [⟨.fallThrough, block, label.target, carriedValues inner.stack label.phis.length⟩] := by
      rw [flowInto, here.getInsertBlock]
      rfl
    have exact := closable.exact here.reachable
    have positive := closable.positive
    rw [BlockContext.Logged, edges] at after
    rw [BlockContext.Borne, edges]
    refine grown.append after ?_ (by simp)
    intro edge inside
    obtain rfl := List.mem_singleton.mp inside
    exact .inr ⟨label, by rwa [flowInto_blockStack], rfl, carriedValues_length (by omega)⟩

theorem flowInto_faithful (label : BreakoutTarget) :
    (inner.flowInto label.target label.phis).Faithful ↔ inner.Faithful := by
  rw [BlockContext.Faithful, BlockContext.Faithful, flowInto]
  cases inner.getInsertBlock with
  | none => rfl
  | some block =>
      refine List.forall_mem_append.trans (and_iff_left ?_)
      intro edge member
      obtain rfl := List.mem_singleton.mp member
      exact .inr rfl

theorem startLoop_faithful (enough : decl.params.length ≤ context.stack.length)
    (outside : block ≠ context.function.blocks.length) :
    (context.startLoop block decl types).Faithful ↔ context.Faithful ∧ decl.params.isEmpty := by
  refine List.forall_mem_append.trans (and_congr_right fun _ => ?_)
  have empty : carriedValues context.stack decl.params.length = [] ↔ decl.params = [] := by
    rw [← List.length_eq_zero_iff, carriedValues_length enough, List.length_eq_zero_iff]
  simp only [List.forall_mem_singleton, Edge.Faithful, Edge.recorded, empty, List.isEmpty_iff,
    Option.some.injEq, or_iff_left_iff_imp]
  exact fun same => absurd same.symm outside

theorem startThen_faithful (value : Value) (rest : List Value) :
    (context.startThen block value rest decl types).Faithful ↔ context.Faithful := by
  rw [BlockContext.Faithful, BlockContext.Faithful]
  refine (List.forall_mem_append.trans (and_iff_left ?_)).trans
    (List.forall_mem_append.trans (and_iff_left ?_)) <;>
  · intro edge member
    obtain rfl := List.mem_singleton.mp member
    exact .inl rfl

end Blocks

theorem Emits.borne {context final : BlockContext I.Op} {exprs : List (Expr I.Instr)}
    (emits : Emits I context exprs final) (logged : context.Logged) (borne : context.Borne) :
    final.Borne := by
  induction emits with
  | nil => exact borne
  | skipped nowhere => exact borne
  | step here head tail ih => exact ih (head.logged here logged) (head.borne here logged borne)
  | @block context inner _ block decl _ _ types here all run closable tail ihRun ihTail =>
      have inside := run.logged (startBlock_logged logged)
      have top : inner.blockStack = context.blockLabel decl types :: context.blockStack := run.blockStack
      have placed := run.placed (.inr ⟨_, startBlock_at _ _ here⟩)
      have member := top ▸ List.mem_cons_self
      have left := flowInto_logged placed inside (inside.labelled _ member) (exitLabel_sized _ _ _ all)
        closable
      refine ihTail (left.subset fun label member => ?_) (flowInto_borne placed inside
        (ihRun (startBlock_logged logged) (startBlock_borne borne)) member (exitLabel_sized _ _ _ all)
        closable)
      rw [flowInto_blockStack]
      exact List.mem_of_mem_tail member
  | loop here all enough run closable tail ihRun ihTail =>
      have entered := startLoop_logged here logged all enough
      exact ihTail ((run.logged entered).subset fun label member => List.mem_of_mem_tail member)
        (ihRun entered (startLoop_borne here logged borne all enough))
  | @if_ context first second _ block value rest decl _ _ _ types here top enough all runTrue
      closableTrue runFalse closableFalse tail ihTrue ihFalse ihTail =>
      have entered : (context.startThen block value rest decl types).Logged :=
        startThen_logged here logged value rest
      have insideTrue := runTrue.logged entered
      have topTrue : first.blockStack = context.ifLabel block value rest decl types ::
        context.blockStack := runTrue.blockStack
      have placedTrue := runTrue.placed (.inr ⟨_, startThen_at _ _ _ _⟩)
      have memberTrue := topTrue ▸ List.mem_cons_self
      have leftTrue := flowInto_logged placedTrue insideTrue (insideTrue.labelled _ memberTrue)
        (exitLabel_sized _ _ _ all) closableTrue
      have borneTrue := flowInto_borne placedTrue insideTrue
        (ihTrue entered (startThen_borne here logged borne value rest)) memberTrue
        (exitLabel_sized _ _ _ all) closableTrue
      have enteredFalse : (first.startElse (context.ifLabel block value rest decl types)
          (context.function.blocks.length + 1) (rest.take decl.params.length)).Logged :=
        leftTrue.subset fun label member => by
          rw [flowInto_blockStack]
          exact member
      have insideFalse := runFalse.logged enteredFalse
      have topFalse : second.blockStack = context.ifLabel block value rest decl types ::
        context.blockStack := runFalse.blockStack.trans (startElse_blockStack runTrue)
      have placedFalse := runFalse.placed (.inr ⟨_, startElse_placed runTrue⟩)
      have memberFalse := topFalse ▸ List.mem_cons_self
      have leftFalse := flowInto_logged placedFalse insideFalse (insideFalse.labelled _ memberFalse)
        (exitLabel_sized _ _ _ all) closableFalse
      refine ihTail (leftFalse.subset fun label member => ?_) (flowInto_borne placedFalse insideFalse
        (ihFalse enteredFalse borneTrue) memberFalse (exitLabel_sized _ _ _ all) closableFalse)
      rw [flowInto_blockStack]
      exact List.mem_of_mem_tail member

theorem labelArities_append {context : BlockContext I.Op} {label : BreakoutTarget}
    {labels : List BreakoutTarget} (labelled : context.blockStack = label :: labels) {arity : Nat}
    (sized : label.phis.length = arity) :
    context.labelArities = arity :: labels.map fun label => label.phis.length := by
  rw [labelArities, labelled, List.map_cons, sized]

/-- The history of a run is faithful exactly if the code it visits is safe. -/
theorem Emits.faithful_iff {context final : BlockContext I.Op} {exprs : List (Expr I.Instr)}
    (emits : Emits I context exprs final) :
    final.Faithful ↔ context.Faithful ∧
      (context.insertPoint = none ∨ ExprList.phisSafe context.labelArities exprs) := by
  induction emits with
  | nil => simp [ExprList.phisSafe]
  | skipped nowhere => simp [nowhere]
  | @step context next final block expr exprs here head tail ih =>
      obtain ⟨more, edges, stepEdges⟩ := head.edges
      have same : next.labelArities = context.labelArities := by
        rw [labelArities, labelArities, head.blockStack]
      rw [ih, head.nowhere_iff, BlockContext.Faithful, BlockContext.Faithful, edges,
        List.forall_mem_append, stepEdges.faithful, same]
      simp [here.reachable, ExprList.phisSafe, and_assoc]
  | @block context inner _ block decl body exprs types here all run closable tail ihRun ihTail =>
      have inside : (context.startBlock block decl types).labelArities =
          decl.results.length :: context.labelArities :=
        labelArities_append (by rfl) (exitLabel_sized _ _ _ all)
      have outside : ((inner.leave .block (context.blockLabel decl types)).moveTo
          context.function.blocks.length).labelArities = context.labelArities := by
        simp [labelArities, leave, run.blockStack, startBlock, openLabel]
      have entered : (context.startBlock block decl types).Faithful ↔ context.Faithful := Iff.rfl
      have left : ((inner.leave .block (context.blockLabel decl types)).moveTo
          context.function.blocks.length).Faithful ↔ inner.Faithful := flowInto_faithful _
      have reached := (startBlock_at decl types here).reachable
      rw [ihTail, left, ihRun, inside, outside, entered]
      simp [here.reachable, reached, ExprList.phisSafe, Expr.phisSafe, Expr.diverges, and_assoc]
  | @loop context inner _ block decl body exprs types here all enough run closable tail ihRun ihTail =>
      have inside : (context.startLoop block decl types).labelArities =
          decl.params.length :: context.labelArities :=
        labelArities_append (by rfl) (loopLabel_sized _ _ all)
      have outside : (inner.withLabels inner.blockStack.tail).labelArities = context.labelArities := by
        simp [labelArities, run.blockStack, startLoop, openLoop, branchToLoop]
      have left : (inner.withLabels inner.blockStack.tail).Faithful ↔ inner.Faithful := Iff.rfl
      have reached : (context.startLoop block decl types).insertPoint ≠ none :=
        (startLoop_at _ _).reachable
      have leaves := run.nowhere_iff
      rw [ihTail, left, ihRun, inside, outside,
        startLoop_faithful enough (Nat.ne_of_lt here.bound), withLabels_insertPoint, leaves]
      simp [here.reachable, reached, ExprList.phisSafe, Expr.phisSafe, Expr.diverges, and_assoc]
  | @if_ context first second _ block value rest decl body other exprs types here top enough all
      runTrue closableTrue runFalse closableFalse tail ihTrue ihFalse ihTail =>
      have insideTrue : (context.startThen block value rest decl types).labelArities =
          decl.results.length :: context.labelArities :=
        labelArities_append (by rfl) (exitLabel_sized _ _ _ all)
      have insideFalse : (first.startElse (context.ifLabel block value rest decl types)
          (context.function.blocks.length + 1) (rest.take decl.params.length)).labelArities =
            decl.results.length :: context.labelArities :=
        labelArities_append (startElse_blockStack runTrue) (exitLabel_sized _ _ _ all)
      have outside : ((second.leave .else_ (context.ifLabel block value rest decl types)).moveTo
          (context.function.blocks.length + 2)).labelArities = context.labelArities := by
        simp [labelArities, leave, runFalse.blockStack, startElse_blockStack runTrue]
      have leftTrue : (first.startElse (context.ifLabel block value rest decl types)
          (context.function.blocks.length + 1) (rest.take decl.params.length)).Faithful ↔
            first.Faithful := flowInto_faithful _
      have leftFalse : ((second.leave .else_ (context.ifLabel block value rest decl types)).moveTo
          (context.function.blocks.length + 2)).Faithful ↔ second.Faithful := flowInto_faithful _
      have reachedTrue : (context.startThen block value rest decl types).insertPoint ≠ none :=
        (startThen_at _ _ _ _).reachable
      rw [ihTail, leftFalse, ihFalse, leftTrue, ihTrue, insideTrue, insideFalse, outside,
        startThen_faithful]
      simp [here.reachable, reachedTrue, startElse, ExprList.phisSafe, Expr.phisSafe, Expr.diverges,
        and_assoc]

/-! ## Functions -/

theorem prologue_logged {Op : Type} (params locals : List Ty) :
    Block.Logged (prologue params locals : BlockContext Op).function [] [] := by
  have empty : Block.Logged (Function.empty : Function Op) [] [] :=
    ⟨traced_empty, recorded_empty, by simp⟩
  have bound : 0 < ((Function.empty : Function Op).newBlock "allocator").blocks.length := by simp
  have stored := (empty.newBlock "allocator").appendPlains bound
    (storage_isPlain (arguments 0 params) 0)
  exact (stored.appendPlains (by simp) (storage_isPlain _ _)).newBlock "return"

theorem startFunc_logged {Op : Type} (params locals results : List Ty) (decl : BlockDeclaration) :
    (startFunc params locals results decl : BlockContext Op).Logged := by
  have blocks : (prologue params locals : BlockContext Op).function.blocks.length = 2 :=
    prologue_blocks_length params locals
  let label := funcLabel Op params locals results decl
  have bound : label.target < (prologue params locals : BlockContext Op).function.blocks.length := by
    simp [label, funcLabel, exitLabel, blocks]
  have fresh : (prologue params locals : BlockContext Op).function.body label.target = [] := by
    simp [label, funcLabel, exitLabel, prologue, store, Function.body_eq_nil, Function.empty]
  exact (prologue_logged params locals).openExit bound fresh rfl (phiInsts_isPhi results 0) (by simp)
    (exitLabel_phis _ _ _ _ _)

theorem finish_edges {Op : Type} (context : BlockContext Op) (block arity : Nat) :
    (context.finish block arity).edges = context.edges := by
  rcases arity with _ | arity
  · rfl
  · cases top : context.stack <;> simp [finish, top]

section Functions

variable {func : Func I.Instr} {final : BlockContext I.Op}

/-- The history of a whole translation. -/
structure History (func : Func I.Instr) (final : BlockContext I.Op) : Prop where
  logged : Block.Logged final.function final.edges []
  borne : final.Borne
  faithful : final.Faithful ↔ func.phisSafe

theorem EmitsFunc.history (emits : EmitsFunc I func final) : History func final := by
  obtain @⟨params, locals, results, inner, paramsOk, localsOk, resultsOk, run, closable, single⟩ :=
    emits
  let label := funcLabel I.Op params locals results func.decl
  have started : (startFunc params locals results func.decl : BlockContext I.Op).Logged :=
    startFunc_logged _ _ _ _
  have borneStart : (startFunc params locals results func.decl : BlockContext I.Op).Borne :=
    ⟨fun edge member => absurd member List.not_mem_nil,
      fun edge member => absurd member List.not_mem_nil⟩
  have inside := run.logged started
  have top : inner.blockStack = [label] := run.blockStack
  have member : label ∈ inner.blockStack := top ▸ List.mem_cons_self
  have sized : label.phis.length = func.decl.results.length := exitLabel_sized _ _ _ resultsOk
  have placed := run.placed (.inr ⟨0, startFunc_at _ _ _ _⟩)
  have left := flowInto_logged placed inside (inside.labelled _ member) sized closable
  have borneLeft := flowInto_borne placed inside (run.borne started borneStart) member sized closable
  obtain ⟨value, returned⟩ := finish_function 1 single (enough_results resultsOk inner)
  have bound : 1 < (inner.flowInto label.target label.phis).function.blocks.length :=
    (left.labelled label (by rwa [flowInto_blockStack])).bound
  have finished : Block.Logged ((inner.flowInto label.target label.phis).function.append 1 (.ret value))
      ((inner.flowInto label.target label.phis).edges ++ []) [] :=
    (left.subset (by simp)).arms bound (by rfl) (by simp) (by rfl)
      (by simp [Inst.targets]) (by simp)
  rw [List.append_nil] at finished
  have edges := finish_edges ((inner.leave .func label).moveTo 1) 1 func.decl.results.length
  have faithful := (flowInto_faithful label).trans run.faithful_iff
  refine ⟨?_, ?_, ?_⟩
  · rw [returned, edges]
    exact finished
  · rw [BlockContext.Borne, returned, edges]
    exact borneLeft.grows ((Function.Grows.refl _).append _ _)
  · rw [BlockContext.Faithful, edges]
    refine faithful.trans ?_
    have arities : (startFunc params locals results func.decl : BlockContext I.Op).labelArities =
        [func.decl.results.length] := congrArg (· :: []) sized
    have reached : (startFunc params locals results func.decl : BlockContext I.Op).insertPoint ≠ none :=
      (startFunc_at _ _ _ _).reachable
    have nothing : (startFunc params locals results func.decl : BlockContext I.Op).Faithful :=
      fun _ member => absurd member List.not_mem_nil
    rw [arities]
    simp [reached, nothing, Func.phisSafe]

/-- Phis agree with the control-flow graph exactly if the translator visits no loop
with parameters and no `br_table` with an explicit target that takes values. -/
theorem visitFunc_phisAgree_iff (built : visitFunc I func = .ok final) :
    PhisAgree final ↔ func.phisSafe := by
  have history := (visitFunc_ok.mp built).history
  rw [← history.faithful]
  exact ⟨fun agree => agree.faithful history.logged history.borne,
    phisAgree_of_faithful history.logged⟩

end Functions

/-- A conditional branch that carries a value out of a loop. -/
def carryOut : Func controlOnly.Instr where
  decl := ⟨[.i32], [.i32]⟩
  localTypes := []
  exprs := [.block ⟨[], [.i32]⟩ [.loop ⟨[], []⟩ [.localGet 0, .localGet 0, .brIf 1, .localSet 0, .br 0]]]

theorem visitFunc_phisAgree_iff_carryOut :
    ∃ final, visitFunc controlOnly carryOut = .ok final ∧ PhisAgree final := by
  obtain ⟨final, built⟩ := visitFunc_completes
    (show (visitFunc controlOnly carryOut).isOk from by decide +kernel)
  exact ⟨final, built, (visitFunc_phisAgree_iff built).mpr (by decide +kernel)⟩

/-- A `br_table` that returns a value. -/
def tableReturn : Func controlOnly.Instr where
  decl := ⟨[.i32], [.i32]⟩
  localTypes := []
  exprs := [.localGet 0, .localGet 0, .brTable [0] 0]

/-- A loop with a parameter, which it returns. -/
def loopParam : Func controlOnly.Instr where
  decl := ⟨[.i32], [.i32]⟩
  localTypes := []
  exprs := [.localGet 0, .loop ⟨[.i32], [.i32]⟩ []]

theorem phis_disagree :
    (Validated (nofun : controlOnly.Instr → Option FuncSignature) tableReturn ∧
      ∃ final, visitFunc controlOnly tableReturn = .ok final ∧ ¬ PhisAgree final) ∧
    (Validated (nofun : controlOnly.Instr → Option FuncSignature) loopParam ∧
      ∃ final, visitFunc controlOnly loopParam = .ok final ∧ ¬ PhisAgree final) := by
  constructor
  · obtain ⟨final, built⟩ := visitFunc_completes
      (show (visitFunc controlOnly tableReturn).isOk from by decide +kernel)
    refine ⟨by decide +kernel, final, built, fun agree => ?_⟩
    have history := (visitFunc_ok.mp built).history
    have safe := history.faithful.mp (agree.faithful history.logged history.borne)
    exact absurd safe (by decide +kernel)
  · obtain ⟨final, built⟩ := visitFunc_completes
      (show (visitFunc controlOnly loopParam).isOk from by decide +kernel)
    refine ⟨by decide +kernel, final, built, fun agree => ?_⟩
    have history := (visitFunc_ok.mp built).history
    have safe := history.faithful.mp (agree.faithful history.logged history.borne)
    exact absurd safe (by decide +kernel)

end WasmToLlvm.Block
