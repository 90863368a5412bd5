import WasmToLlvm.Block.Invariants
import WasmToLlvm.Llvm.Dominance

/-!
# The layout of the blocks

A block is made while code is inserted into another one, its parent. The parents form a
tree that bounds the edges, and the order in which code is inserted into the blocks shows
that only the entries of loops are branched back to.
-/

set_option autoImplicit false

namespace WasmToLlvm.Block

open Llvm Wasm Library BlockContext

/-- The name of the first block of a loop. -/
def IsLoopEntry (names : List String) (block : Nat) : Prop :=
  names[block]? = some "loop_entry"

/-- A branch from one block may go to another: nothing is inserted there yet, or it is
the entry of a loop around. -/
structure MayGo (pending : List Nat) (parent : Nat → Option Nat) (names : List String) (block target : Nat) :
    Prop where
  ahead : target ∈ pending ∨ IsLoopEntry names target ∧ Above parent target block
  above : ∀ above, parent target = some above → Above parent above block

/-- The invariant on the tree of blocks and on the order in which they are entered;
`pending` blocks have not been. -/
structure Layout (pending : List Nat) (parent : Nat → Option Nat) (order : List Nat) (names : List String)
    (edges : List Edge) : Prop where
  root : parent 0 = none
  fresh : ∀ block, names.length ≤ block → parent block = none
  rooted : ∀ block < names.length, Above parent 0 block
  bounded : ∀ edge ∈ edges, edge.target < names.length
  bounds : ∀ edge ∈ edges, ∀ above, parent edge.target = some above → Above parent above edge.source
  entered : ∀ block ∈ order, block < names.length
  apart : ∀ block ∈ pending, block < names.length ∧ block ∉ order
  unique : pending.Nodup
  ordered : ∀ edge ∈ edges, Before order edge.source edge.target ∨
    IsLoopEntry names edge.target ∧ Above parent edge.target edge.source

/-- More blocks, with the parents of the old ones as they were. -/
structure Later (parent : Nat → Option Nat) (names : List String) (parent' : Nat → Option Nat)
    (names' : List String) : Prop where
  agrees : ∀ block < names.length, parent' block = parent block
  names : names <+: names'

section Layout

variable {pending order : List Nat} {parent parent' parent'' : Nat → Option Nat} {names names' names'' : List String}
  {edges more : List Edge} {block target lower : Nat}

theorem Later.refl : Later parent names parent names :=
  ⟨fun _ _ => rfl, List.prefix_refl _⟩

theorem Later.trans (front : Later parent names parent' names') (back : Later parent' names' parent'' names'') :
    Later parent names parent'' names'' where
  agrees := by
    intro block old
    rw [back.agrees block (Nat.lt_of_lt_of_le old front.names.length_le), front.agrees block old]
  names := front.names.trans back.names

/-- A block that was made on the way stays below its parent. -/
theorem Later.child {new : Nat} (front : Later parent names parent' names')
    (back : Later parent' names' parent'' names'') (is : parent' new = some block) (inside : new < names'.length) :
    Later parent names parent'' names'' ∧ Above parent'' block new :=
  ⟨front.trans back, .up ((back.agrees new inside).trans is) .refl⟩

theorem Layout.embeds (layout : Layout pending parent order names edges) (later : Later parent names parent' names') :
    Embeds parent parent' := by
  intro block above found
  rw [later.agrees block ?_, found]
  by_contra new
  rw [layout.fresh block (Nat.le_of_not_lt new)] at found
  cases found

theorem IsLoopEntry.mono (is : IsLoopEntry names block) (longer : names <+: names') : IsLoopEntry names' block := by
  obtain ⟨rest, rfl⟩ := longer
  rw [IsLoopEntry, List.getElem?_append_left (List.getElem?_eq_some_iff.mp is).1, is]

theorem IsLoopEntry.bound (is : IsLoopEntry names block) : block < names.length :=
  (List.getElem?_eq_some_iff.mp is).1

theorem MayGo.bound (layout : Layout pending parent order names edges) (mayGo : MayGo pending parent names block target) :
    target < names.length := by
  rcases mayGo.ahead with waits | ⟨is, _⟩
  · exact (layout.apart target waits).1
  · exact is.bound

/-- What may be branched to from a block may be branched to from the blocks below it. -/
theorem MayGo.below (layout : Layout pending parent order names edges)
    (mayGo : MayGo pending parent names block target) (later : Later parent names parent' names')
    (under : Above parent' block lower) : MayGo pending parent' names' lower target where
  ahead := by
    rcases mayGo.ahead with waits | ⟨is, above⟩
    · exact .inl waits
    · exact .inr ⟨is.mono later.names, (above.mono (layout.embeds later)).trans under⟩
  above := by
    intro above found
    rw [later.agrees target (mayGo.bound layout)] at found
    exact ((mayGo.above above found).mono (layout.embeds later)).trans under

theorem MayGo.pend (mayGo : MayGo pending parent names block target) (new : Nat) :
    MayGo (new :: pending) parent names block target :=
  ⟨mayGo.ahead.imp_left (List.mem_cons_of_mem _), mayGo.above⟩

/-- A new block below the one that instructions are inserted into. -/
def below (parent : Nat → Option Nat) (count block : Nat) : Nat → Option Nat :=
  adopt parent block (· = count)

@[simp] theorem below_new {count : Nat} : below parent count block count = some block :=
  adopt_new rfl

theorem below_old {count other : Nat} (old : other < count) : below parent count block other = parent other :=
  adopt_old (Nat.ne_of_lt old)

theorem below_later {count : Nat} (sized : names.length = count) (name : String) :
    Later parent names (below parent count block) (names ++ [name]) where
  agrees := fun _ old => below_old (sized ▸ old)
  names := List.prefix_append _ _

theorem Layout.newBlock {count : Nat} (layout : Layout pending parent order names edges)
    (sized : names.length = count) (bound : block < count) (name : String) :
    Layout (count :: pending) (below parent count block) order (names ++ [name]) edges := by
  have later : Later parent names (below parent count block) (names ++ [name]) := below_later sized name
  have embeds := layout.embeds later
  have grown : names.length ≤ (names ++ [name]).length := by simp
  have length : (names ++ [name]).length = count + 1 := by simp [sized]
  constructor
  · rw [later.agrees 0 (by omega), layout.root]
  · intro other new
    rw [length] at new
    rw [below, adopt_old (by omega), layout.fresh other (by omega)]
  · intro other inside
    rw [length] at inside
    rcases Nat.lt_succ_iff_lt_or_eq.mp inside with old | rfl
    · exact (layout.rooted other (sized.symm ▸ old)).mono embeds
    · exact .up below_new ((layout.rooted block (sized.symm ▸ bound)).mono embeds)
  · exact fun edge member => Nat.lt_of_lt_of_le (layout.bounded edge member) grown
  · intro edge member above found
    rw [later.agrees _ (layout.bounded edge member)] at found
    exact (layout.bounds edge member above found).mono embeds
  · exact fun other member => Nat.lt_of_lt_of_le (layout.entered other member) grown
  · intro other member
    rcases List.mem_cons.mp member with rfl | member
    · exact ⟨by omega, fun inside => Nat.lt_irrefl _ (sized ▸ layout.entered _ inside)⟩
    · obtain ⟨inside, outside⟩ := layout.apart other member
      exact ⟨Nat.lt_of_lt_of_le inside grown, outside⟩
  · exact List.nodup_cons.mpr ⟨fun member => Nat.lt_irrefl _ (sized ▸ (layout.apart _ member).1), layout.unique⟩
  · intro edge member
    refine (layout.ordered edge member).imp_right fun back => ?_
    exact ⟨back.1.mono later.names, back.2.mono embeds⟩

/-- Edges from the block that instructions are inserted into. -/
theorem Layout.addEdges (layout : Layout pending parent order names edges) (inside : block ∈ order)
    (going : ∀ edge ∈ more, edge.source = block ∧ MayGo pending parent names block edge.target) :
    Layout pending parent order names (edges ++ more) where
  root := layout.root
  fresh := layout.fresh
  rooted := layout.rooted
  bounded := by
    intro edge member
    rcases List.mem_append.mp member with old | new
    · exact layout.bounded edge old
    · exact (going edge new).2.bound layout
  bounds := by
    intro edge member above found
    rcases List.mem_append.mp member with old | new
    · exact layout.bounds edge old above found
    · obtain ⟨from_, mayGo⟩ := going edge new
      rw [from_]
      exact mayGo.above above found
  entered := layout.entered
  apart := layout.apart
  unique := layout.unique
  ordered := by
    intro edge member
    rcases List.mem_append.mp member with old | new
    · exact layout.ordered edge old
    · obtain ⟨from_, mayGo⟩ := going edge new
      rw [from_]
      refine mayGo.ahead.imp_left fun waits => ?_
      exact before_of_not_mem inside (layout.apart _ waits).2

/-- Instructions are inserted into a pending block from now on. -/
theorem Layout.enter (layout : Layout (target :: pending) parent order names edges) :
    Layout pending parent (order ++ [target]) names edges where
  root := layout.root
  fresh := layout.fresh
  rooted := layout.rooted
  bounded := layout.bounded
  bounds := layout.bounds
  entered := by
    intro block member
    rcases List.mem_append.mp member with old | new
    · exact layout.entered block old
    · obtain rfl := List.mem_singleton.mp new
      exact (layout.apart _ List.mem_cons_self).1
  apart := by
    intro block member
    obtain ⟨inside, outside⟩ := layout.apart block (List.mem_cons_of_mem _ member)
    refine ⟨inside, fun entered => ?_⟩
    rcases List.mem_append.mp entered with old | new
    · exact outside old
    · obtain rfl := List.mem_singleton.mp new
      exact (List.nodup_cons.mp layout.unique).1 member
  unique := (List.nodup_cons.mp layout.unique).2
  ordered := fun edge member => (layout.ordered edge member).imp_left fun before => before.append _

theorem Layout.perm {pending' : List Nat} (layout : Layout pending parent order names edges)
    (same : pending.Perm pending') : Layout pending' parent order names edges :=
  { layout with
    apart := fun block member => layout.apart block (same.mem_iff.mpr member)
    unique := same.nodup_iff.mp layout.unique }

end Layout

/-! ## Labels -/

/-- The invariant at the block that instructions are inserted into: all labels may be
branched to. -/
structure Located {Op : Type} (pending : List Nat) (parent : Nat → Option Nat) (order : List Nat)
    (context : BlockContext Op) (block : Nat) : Prop where
  inside : block ∈ order
  labels : ∀ label ∈ context.blockStack, MayGo pending parent context.function.names block label.target

/-- The invariant between two expressions. -/
structure Laid {Op : Type} (pending : List Nat) (parent : Nat → Option Nat) (order : List Nat)
    (context : BlockContext Op) : Prop where
  layout : Layout pending parent order context.function.names context.edges
  located : ∀ block, context.At block → Located pending parent order context block

/-- What a run leaves of the layout: the parents of the blocks that were there, and the
blocks that control comes from above those that it goes to. -/
structure Grows {Op : Type} (parent : Nat → Option Nat) (context : BlockContext Op) (parent' : Nat → Option Nat)
    (final : BlockContext Op) : Prop where
  later : Later parent context.function.names parent' final.function.names
  under : ∀ start finish, context.At start → final.At finish → Above parent' start finish

section Labels

variable {Op : Type} {pending order : List Nat} {parent parent' parent'' : Nat → Option Nat}
  {context middle next final : BlockContext Op} {block target : Nat} {more : List Edge}

theorem Grows.refl : Grows parent context parent context where
  later := .refl
  under := by
    intro start finish here there
    rw [here.unique there]
    exact .refl

theorem Grows.trans (front : Grows parent context parent' middle) (back : Grows parent' middle parent'' final)
    (embeds : Embeds parent' parent'') (reached : final.insertPoint ≠ none → ∃ start, middle.At start) :
    Grows parent context parent'' final where
  later := front.later.trans back.later
  under := by
    intro first last from_ there
    obtain ⟨start, here⟩ := reached there.reachable
    exact ((front.under first start from_ here).mono embeds).trans (back.under start last here there)

/-- A change of the block that instructions are inserted into only. -/
theorem Laid.congr (laid : Laid pending parent order context) (here : context.At block)
    (names : next.function.names = context.function.names) (edges : next.edges = context.edges)
    (labels : next.blockStack = context.blockStack) (there : ∀ other, next.At other → other = block) :
    Laid pending parent order next where
  layout := by
    rw [names, edges]
    exact laid.layout
  located := by
    intro other at_
    obtain rfl := there other at_
    obtain ⟨inside, goals⟩ := laid.located other here
    exact ⟨inside, fun label member => by
      rw [names]
      exact goals label (labels ▸ member)⟩

theorem Laid.withLabels {labels : List BreakoutTarget} (laid : Laid pending parent order context)
    (fewer : ∀ label ∈ labels, label ∈ context.blockStack) : Laid pending parent order (context.withLabels labels) where
  layout := laid.layout
  located := by
    intro block there
    obtain ⟨inside, goals⟩ := laid.located block ⟨there.point, there.bound⟩
    exact ⟨inside, fun label member => goals label (fewer label member)⟩

/-- The label at an insertion point may be branched to from a block below it. -/
theorem Laid.labelsBelow {lower : Nat} {names : List String} (laid : Laid pending parent order context)
    (here : context.At block) (later : Later parent context.function.names parent' names)
    (under : Above parent' block lower) :
    ∀ label ∈ context.blockStack, MayGo pending parent' names lower label.target := by
  intro label member
  exact ((laid.located block here).labels label member).below laid.layout later under

end Labels

variable {I : InstructionSet} {pending order : List Nat} {parent : Nat → Option Nat}

section Names

variable {Op : Type} (context : BlockContext Op) (block : Nat) (decl : BlockDeclaration) (types : List Ty)
  (value : Value) (rest : List Value) (label : BreakoutTarget)

@[simp] theorem startBlock_names :
    (context.startBlock block decl types).function.names = context.function.names ++ ["blk_exit"] := by
  simp [startBlock, openLabel]

@[simp] theorem startLoop_names :
    (context.startLoop block decl types).function.names = context.function.names ++ ["loop_entry"] := by
  simp [startLoop, openLoop, openParams, branchToLoop]

@[simp] theorem startThen_names :
    (context.startThen block value rest decl types).function.names =
      context.function.names ++ ["ifblk"] ++ ["elseblk"] ++ ["ifblk_exit"] := by
  simp [startThen, openLabel, branchToArms, compareZero]

@[simp] theorem branchOrNext_names :
    (context.branchOrNext block value rest label).function.names = context.function.names ++ ["brif_next"] := by
  simp [branchOrNext, branchTo, compareZero]

@[simp] theorem flowInto_names (exit : Nat) (phis : List PHINode) :
    (context.flowInto exit phis).function.names = context.function.names := by
  rw [flowInto]
  cases context.getInsertBlock with
  | none => rfl
  | some block => simp

@[simp] theorem addTargets_names (switch source i : Nat) (labels : List BreakoutTarget) :
    (context.addTargets switch source labels i).function.names = context.function.names := by
  induction labels generalizing context i with
  | nil => rfl
  | cons label labels ih => exact ih (context.addTarget switch source i label) (i + 1)

end Names

/-! ## Constructs -/

section Constructs

variable {Op : Type} {context inner : BlockContext Op} {block target : Nat} {decl : BlockDeclaration} {types : List Ty}

/-- A block made here may be branched to. -/
theorem mayGo_new {new : Nat} {names : List String} (waits : new ∈ pending) (is : parent new = some block) :
    MayGo pending parent names block new where
  ahead := .inl waits
  above := by
    intro above found
    obtain rfl := Option.some.inj (is.symm.trans found)
    exact .refl

theorem Laid.ofNowhere (layout : Layout pending parent order context.function.names context.edges)
    (nowhere : context.insertPoint = none) : Laid pending parent order context :=
  ⟨layout, fun _ there => absurd nowhere there.reachable⟩

/-- A block is made. -/
theorem Laid.make (laid : Laid pending parent order context) (here : context.At block) (name : String) :
    Laid (context.function.blocks.length :: pending) (below parent context.function.blocks.length block) order
      (context.newBlock name) where
  layout := by
    rw [newBlock_function, Function.names_newBlock]
    exact laid.layout.newBlock (Function.names_length _) here.bound name
  located := by
    intro other there
    obtain rfl := there.unique (here.newBlock name)
    refine ⟨(laid.located other here).inside, fun label member => ?_⟩
    rw [newBlock_function, Function.names_newBlock]
    exact (laid.labelsBelow here (below_later (Function.names_length _) name) .refl label member).pend _

theorem startBlock_laid (here : context.At block) (laid : Laid pending parent order context) :
    Laid (context.function.blocks.length :: pending) (below parent context.function.blocks.length block) order
      (context.startBlock block decl types) := by
  have made := laid.make here "blk_exit"
  refine ⟨by rw [startBlock_names, ← Function.names_newBlock]; exact made.layout, fun other there => ?_⟩
  obtain rfl := there.unique (startBlock_at decl types here)
  obtain ⟨inside, goals⟩ := made.located other (here.newBlock _)
  refine ⟨inside, fun label member => ?_⟩
  rw [startBlock_names, ← Function.names_newBlock]
  rcases List.mem_cons.mp member with rfl | member
  · exact mayGo_new List.mem_cons_self below_new
  · exact goals label member

theorem startLoop_laid (here : context.At block) (laid : Laid pending parent order context) :
    Laid pending (below parent context.function.blocks.length block) (order ++ [context.function.blocks.length])
      (context.startLoop block decl types) := by
  have made := laid.make here "loop_entry"
  have names : (context.startLoop block decl types).function.names = (context.newBlock "loop_entry").function.names := by
    simp
  have edges : (context.startLoop block decl types).edges = context.edges ++
      [⟨.loopEntry, block, context.function.blocks.length, carriedValues context.stack decl.params.length⟩] := rfl
  have later : Later parent context.function.names (below parent context.function.blocks.length block)
      (context.newBlock "loop_entry").function.names := by
    rw [newBlock_function, Function.names_newBlock]
    exact below_later (Function.names_length _) _
  have goal : ∀ edge ∈ [Edge.mk .loopEntry block context.function.blocks.length
      (carriedValues context.stack decl.params.length)], edge.source = block ∧
        MayGo (context.function.blocks.length :: pending) (below parent context.function.blocks.length block)
          (context.newBlock "loop_entry").function.names block edge.target := by
    intro edge member
    obtain rfl := List.mem_singleton.mp member
    exact ⟨rfl, mayGo_new List.mem_cons_self below_new⟩
  have entered := (made.layout.addEdges (made.located block (here.newBlock _)).inside goal).enter
  refine ⟨by rw [names, edges]; exact entered, fun other there => ?_⟩
  obtain rfl := there.unique (startLoop_at decl types)
  refine ⟨List.mem_append_right _ (List.mem_singleton_self _), fun label member => ?_⟩
  rw [names]
  rcases List.mem_cons.mp member with rfl | member
  · refine ⟨.inr ⟨?_, .refl⟩, fun above found => ?_⟩
    · rw [IsLoopEntry, newBlock_function, Function.names_newBlock]
      exact (congrArg _ (Function.names_length _).symm).trans List.getElem?_concat_length
    · obtain rfl := Option.some.inj (below_new.symm.trans found)
      exact .up below_new .refl
  · exact laid.labelsBelow here later (.up below_new .refl) label member

/-- The parents with the three blocks of a conditional. -/
def belowArms (parent : Nat → Option Nat) (count block : Nat) : Nat → Option Nat :=
  below (below (below parent count block) (count + 1) block) (count + 2) block

theorem belowArms_new {count new : Nat} (among : new = count ∨ new = count + 1 ∨ new = count + 2) :
    belowArms parent count block new = some block := by
  rcases among with rfl | rfl | rfl
  · rw [belowArms, below_old (by omega), below_old (by omega), below_new]
  · rw [belowArms, below_old (by omega), below_new]
  · exact below_new

theorem startBlock_later : Later parent context.function.names (below parent context.function.blocks.length block)
    (context.startBlock block decl types).function.names := by
  rw [startBlock_names]
  exact below_later (Function.names_length _) _

theorem startLoop_later : Later parent context.function.names (below parent context.function.blocks.length block)
    (context.startLoop block decl types).function.names := by
  rw [startLoop_names]
  exact below_later (Function.names_length _) _

theorem startThen_later (value : Value) (rest : List Value) :
    Later parent context.function.names (belowArms parent context.function.blocks.length block)
      (context.startThen block value rest decl types).function.names where
  agrees := by
    intro other old
    rw [Function.names_length] at old
    rw [belowArms, below_old (by omega), below_old (by omega), below_old old]
  names := by
    rw [startThen_names, List.append_assoc, List.append_assoc]
    exact List.prefix_append _ _

theorem startThen_laid (here : context.At block) (value : Value) (rest : List Value)
    (laid : Laid pending parent order context) :
    Laid ((context.function.blocks.length + 1) :: (context.function.blocks.length + 2) :: pending)
      (belowArms parent context.function.blocks.length block) (order ++ [context.function.blocks.length])
      (context.startThen block value rest decl types) := by
  have first := laid.make here "ifblk"
  have second := first.make (here.newBlock _) "elseblk"
  have third := second.make ((here.newBlock _).newBlock _) "ifblk_exit"
  simp only [newBlock_function, Function.blocks_length_newBlock] at third
  have arms := third.layout.perm (List.reverse_perm [context.function.blocks.length,
    context.function.blocks.length + 1, context.function.blocks.length + 2] |>.append_right pending)
  have names : (context.startThen block value rest decl types).function.names =
      (((context.newBlock "ifblk").newBlock "elseblk").newBlock "ifblk_exit").function.names := by
    simp
  have edges : (context.startThen block value rest decl types).edges = context.edges ++
      [⟨.arm, block, context.function.blocks.length, []⟩, ⟨.arm, block, context.function.blocks.length + 1, []⟩] :=
    List.append_assoc _ _ _
  have goals : ∀ edge ∈ [Edge.mk .arm block context.function.blocks.length [],
      ⟨.arm, block, context.function.blocks.length + 1, []⟩], edge.source = block ∧
        MayGo ([context.function.blocks.length, context.function.blocks.length + 1,
          context.function.blocks.length + 2] ++ pending) (belowArms parent context.function.blocks.length block)
          (context.startThen block value rest decl types).function.names block edge.target := by
    intro edge member
    rcases List.mem_pair.mp member with rfl | rfl
    · exact ⟨rfl, mayGo_new (by simp) (belowArms_new (.inl rfl))⟩
    · exact ⟨rfl, mayGo_new (by simp) (belowArms_new (.inr (.inl rfl)))⟩
  have entered := (arms.addEdges (laid.located block here).inside (names ▸ goals)).enter
  refine ⟨by rw [names, edges]; exact entered, fun other there => ?_⟩
  obtain rfl := there.unique (startThen_at decl types value rest)
  refine ⟨List.mem_append_right _ (List.mem_singleton_self _), fun label member => ?_⟩
  have later : Later parent context.function.names (belowArms parent context.function.blocks.length block)
      (context.startThen block value rest decl types).function.names := startThen_later value rest
  rcases List.mem_cons.mp member with rfl | member
  · refine ⟨.inl (by simp [exitLabel]), fun above found => ?_⟩
    obtain rfl := Option.some.inj ((belowArms_new (.inr (.inr rfl))).symm.trans found)
    exact .up (belowArms_new (.inl rfl)) .refl
  · exact ((laid.labelsBelow here later (.up (belowArms_new (.inl rfl)) .refl) label member).pend _).pend _

/-- The end of a body, with the block that instructions are inserted into next. -/
theorem leave_laid {label : BreakoutTarget} (lty : LabelType) (placed : inner.Placed)
    (laid : Laid (target :: pending) parent order inner) (member : label ∈ inner.blockStack)
    (goals : ∀ other ∈ (inner.leave lty label).blockStack,
      MayGo pending parent inner.function.names target other.target) :
    Laid pending parent (order ++ [target]) ((inner.leave lty label).moveTo target) where
  layout := by
    have names : ((inner.leave lty label).moveTo target).function.names = inner.function.names := by
      simp [leave]
    rw [names]
    show Layout _ _ _ _ (inner.flowInto label.target label.phis).edges
    rcases placed with nowhere | ⟨block, here⟩
    · have unplaced : inner.getInsertBlock = none := by simp [getInsertBlock, nowhere]
      rw [flowInto, unplaced]
      exact laid.layout.enter
    · obtain ⟨inside, labels⟩ := laid.located block here
      rw [flowInto, here.getInsertBlock]
      exact (laid.layout.addEdges inside (List.forall_mem_singleton.mpr ⟨rfl, labels label member⟩)).enter
  located := by
    intro other there
    have bound : target < (inner.leave lty label).function.blocks.length := by
      rw [leave_blocks_length, ← Function.names_length]
      exact (laid.layout.apart target List.mem_cons_self).1
    obtain rfl := there.unique (moveTo_at bound)
    refine ⟨List.mem_append_right _ (List.mem_singleton_self _), fun label member => ?_⟩
    simpa [leave] using goals label member

/-- Control goes from a construct to a block below the one that it stands in. -/
theorem grows_to {parent' : Nat → Option Nat} (here : context.At block)
    (later : Later parent context.function.names parent' inner.function.names)
    (under : Above parent' block target) (bound : target < inner.function.blocks.length) :
    Grows parent context parent' (inner.moveTo target) where
  later := later
  under := by
    intro start finish from_ there
    rw [from_.unique here, there.unique (moveTo_at bound)]
    exact under

end Constructs

section Steps

variable {context next final : BlockContext I.Op} {block : Nat} {expr : Expr I.Instr} {exprs : List (Expr I.Instr)}

theorem Step.laid (step : Step I context block expr next) (here : context.At block)
    (laid : Laid pending parent order context) :
    ∃ parent' order', Laid pending parent' order' next ∧ Grows parent context parent' next := by
  obtain ⟨inside, goals⟩ := laid.located block here
  have goal : ∀ {depth : Nat} {label : BreakoutTarget}, context.blockStack[depth]? = some label →
      MayGo pending parent context.function.names block label.target :=
    fun found => goals _ (List.mem_of_getElem? found)
  -- a transfer of control leaves the insertion point cleared
  have transfers : ∀ {next : BlockContext I.Op} (more : List Edge),
      next.function.names = context.function.names → next.edges = context.edges ++ more →
      next.insertPoint = none →
      (∀ edge ∈ more, edge.source = block ∧ MayGo pending parent context.function.names block edge.target) →
      ∃ parent' order', Laid pending parent' order' next ∧ Grows parent context parent' next := by
    intro next more names edges nowhere going
    refine ⟨parent, order, .ofNowhere ?_ nowhere, ⟨?_, fun _ _ _ there => absurd nowhere there.reachable⟩⟩
    · rw [names, edges]
      exact laid.layout.addEdges inside going
    · rw [names]
      exact .refl
  cases step with
  | @straight _ visit after code ran =>
      have there : (context.afterVisit block after).At block := (emitAll_at _ here.bound).withStack _
      refine ⟨parent, order, laid.congr here (by simp [afterVisit]) rfl rfl fun other at_ => at_.unique there, ?_, ?_⟩
      · rw [show (context.afterVisit block after).function.names = context.function.names by simp [afterVisit]]
        exact .refl
      · intro start finish from_ at_
        rw [from_.unique here, at_.unique there]
        exact .refl
  | unreachable => exact transfers [] (by simp) (by simp) rfl (by simp)
  | br branches =>
      exact transfers [_] (by simp [branchTo]) rfl rfl (List.forall_mem_singleton.mpr ⟨rfl, goal branches.found⟩)
  | return_ _ branches =>
      exact transfers [_] (by simp [branchTo]) rfl rfl (List.forall_mem_singleton.mpr ⟨rfl, goal branches.found⟩)
  | @brIf _ value rest label top branches =>
      have made := laid.make here "brif_next"
      have later : Later parent context.function.names (below parent context.function.blocks.length block)
          (context.branchOrNext block value rest label).function.names := by
        rw [branchOrNext_names]
        exact below_later (Function.names_length _) _
      have names : (context.branchOrNext block value rest label).function.names =
          (context.newBlock "brif_next").function.names := by simp
      have edges : (context.branchOrNext block value rest label).edges = context.edges ++
          [⟨.branch, block, label.target, carriedValues rest label.phis.length⟩,
            ⟨.arm, block, context.function.blocks.length, []⟩] :=
        List.append_assoc _ _ _
      have going : ∀ edge ∈ [Edge.mk .branch block label.target (carriedValues rest label.phis.length),
          ⟨.arm, block, context.function.blocks.length, []⟩], edge.source = block ∧
            MayGo (context.function.blocks.length :: pending) (below parent context.function.blocks.length block)
              (context.newBlock "brif_next").function.names block edge.target := by
        intro edge member
        rcases List.mem_pair.mp member with rfl | rfl
        · exact ⟨rfl, names ▸ ((goal branches.found).below laid.layout later .refl).pend _⟩
        · exact ⟨rfl, mayGo_new List.mem_cons_self below_new⟩
      have entered := (made.layout.addEdges inside going).enter
      refine ⟨_, _, ⟨by rw [names, edges]; exact entered, fun other there => ?_⟩, later, fun start finish from_ there => ?_⟩
      · obtain rfl := there.unique (branchOrNext_at value rest label)
        exact ⟨List.mem_append_right _ (List.mem_singleton_self _),
          laid.labelsBelow here later (.up below_new .refl)⟩
      · obtain rfl := there.unique (branchOrNext_at value rest label)
        rw [from_.unique here]
        exact .up below_new .refl
  | @brTable _ _ value rest label labels top branches all =>
      refine transfers (⟨.branch, block, label.target, carriedValues rest label.phis.length⟩ ::
        labels.map fun label => ⟨.tableCase, block, label.target, carriedValues rest label.phis.length⟩)
        (by simp [startTable, branchTo]) ?_ (by simp [startTable]) ?_
      · rw [addTargets_edges]
        exact List.append_assoc _ _ _
      · intro edge member
        rcases List.mem_cons.mp member with rfl | member
        · exact ⟨rfl, goal branches.found⟩
        · obtain ⟨other, among, rfl⟩ := List.mem_map.mp member
          obtain ⟨depth, _, reaches⟩ := Reaches.of_mem all among
          exact ⟨rfl, goal reaches.found⟩

theorem Emits.reached (emits : Emits I context exprs final) (placed : context.Placed)
    (reachable : final.insertPoint ≠ none) : ∃ start, context.At start := by
  rcases placed with nowhere | here
  · rw [emits.eq_of_nowhere nowhere] at reachable
    exact absurd nowhere reachable
  · exact here

/-- The second arm of a conditional is entered. -/
theorem startElse_laid {parent' : Nat → Option Nat} {order' : List Nat} {first : BlockContext I.Op}
    {decl : BlockDeclaration} {types : List Ty} {value : Value} {rest : List Value} (here : context.At block)
    (laid : Laid pending parent order context) (params : List Value)
    (run : Emits I (context.startThen block value rest decl types) exprs first)
    (inside : Laid ((context.function.blocks.length + 1) :: (context.function.blocks.length + 2) :: pending) parent'
      order' first)
    (later : Later (belowArms parent context.function.blocks.length block)
      (context.startThen block value rest decl types).function.names parent' first.function.names) :
    Laid ((context.function.blocks.length + 2) :: pending) parent' (order' ++ [context.function.blocks.length + 1])
      (first.startElse (context.ifLabel block value rest decl types) (context.function.blocks.length + 1) params) := by
  have top : first.blockStack = context.ifLabel block value rest decl types :: context.blockStack := run.blockStack
  obtain ⟨laterAll, under⟩ := (startThen_later value rest).child later (belowArms_new (.inr (.inl rfl))) (by simp)
  have exit : parent' (context.function.blocks.length + 2) = some block :=
    (later.agrees _ (by simp)).trans (belowArms_new (.inr (.inr rfl)))
  have left := leave_laid .if_ (run.placed (.inr ⟨_, startThen_at _ _ _ _⟩)) inside (top ▸ List.mem_cons_self) (by
    intro other member
    simp only [leave, withLabels_blockStack, if_true, top] at member
    rcases List.mem_cons.mp member with rfl | member
    · refine ⟨.inl List.mem_cons_self, fun above found => ?_⟩
      obtain rfl := Option.some.inj (exit.symm.trans found)
      exact under
    · exact (laid.labelsBelow here laterAll under other member).pend _)
  refine ⟨left.layout, fun other there => ?_⟩
  obtain ⟨inOrder, goals⟩ := left.located other ⟨there.point, there.bound⟩
  exact ⟨inOrder, goals⟩

/-- Every run keeps the layout. -/
theorem Emits.laid (emits : Emits I context exprs final) (laid : Laid pending parent order context) :
    ∃ parent' order', Laid pending parent' order' final ∧ Grows parent context parent' final := by
  induction emits generalizing pending parent order with
  | nil => exact ⟨parent, order, laid, .refl⟩
  | skipped nowhere => exact ⟨parent, order, laid, .refl⟩
  | step here head tail ih =>
      obtain ⟨parent₁, order₁, middle, grows⟩ := head.laid here laid
      obtain ⟨parent₂, order₂, last, grows'⟩ := ih middle
      exact ⟨parent₂, order₂, last, grows.trans grows' (middle.layout.embeds grows'.later)
        (tail.reached (head.placed here))⟩
  | @block context inner _ block decl _ _ types here all run closable tail ihRun ihTail =>
      obtain ⟨parent₁, order₁, inside, grows⟩ := ihRun (startBlock_laid here laid)
      have top : inner.blockStack = context.blockLabel decl types :: context.blockStack := run.blockStack
      obtain ⟨later, under⟩ := startBlock_later.child grows.later below_new (by simp)
      have left := leave_laid .block (run.placed (.inr ⟨_, startBlock_at _ _ here⟩)) inside
        (top ▸ List.mem_cons_self) (by
          simpa [leave, top] using laid.labelsBelow here later under)
      obtain ⟨parent₂, order₂, last, grows'⟩ := ihTail left
      have there := afterBlock_at (context.blockLabel decl types) run
      refine ⟨parent₂, order₂, last, (grows_to here ?_ under ?_).trans grows' (left.layout.embeds grows'.later)
        fun _ => ⟨_, there⟩⟩
      · simpa [leave] using later
      · exact there.bound
  | @loop context inner _ block decl _ _ types here all enough run closable tail ihRun ihTail =>
      obtain ⟨parent₁, order₁, inside, grows⟩ := ihRun (startLoop_laid here laid)
      obtain ⟨later, under⟩ := startLoop_later.child grows.later below_new (by simp)
      have left := inside.withLabels fun label member => List.mem_of_mem_tail member
      obtain ⟨parent₂, order₂, last, grows'⟩ := ihTail left
      have started : (context.startLoop block decl types).At context.function.blocks.length := startLoop_at decl types
      have placed := run.placed (.inr ⟨_, started⟩)
      have middle : Grows parent context parent₁ (inner.withLabels inner.blockStack.tail) := by
        refine ⟨later, fun start finish from_ there => ?_⟩
        rw [from_.unique here]
        exact under.trans (grows.under _ _ (startLoop_at decl types) ⟨there.point, there.bound⟩)
      exact ⟨parent₂, order₂, last, middle.trans grows' (left.layout.embeds grows'.later)
        (tail.reached (placed.imp_right fun there => there.imp fun _ at_ => at_.withLabels _))⟩
  | @if_ context first second _ block value rest decl _ _ _ types here top enough all runTrue
      closableTrue runFalse closableFalse tail ihTrue ihFalse ihTail =>
      obtain ⟨parent₁, order₁, insideTrue, growsTrue⟩ := ihTrue (startThen_laid here value rest laid)
      obtain ⟨parent₂, order₂, insideFalse, growsFalse⟩ := ihFalse
        (startElse_laid here laid (rest.take decl.params.length) runTrue insideTrue growsTrue.later)
      have topFalse : second.blockStack = context.ifLabel block value rest decl types :: context.blockStack :=
        runFalse.blockStack.trans (startElse_blockStack runTrue)
      have laterFalse : Later parent₁ first.function.names parent₂ second.function.names := by
        simpa [startElse, leave] using growsFalse.later
      obtain ⟨later, under⟩ := (startThen_later value rest).child (growsTrue.later.trans laterFalse)
        (belowArms_new (.inr (.inr rfl))) (by simp)
      have left := leave_laid .else_ (runFalse.placed (.inr ⟨_, startElse_placed runTrue⟩)) insideFalse
        (topFalse ▸ List.mem_cons_self) (by simpa [leave, topFalse] using laid.labelsBelow here later under)
      obtain ⟨parent₃, order₃, last, grows'⟩ := ihTail left
      have there : ((second.leave .else_ (context.ifLabel block value rest decl types)).moveTo
          (context.function.blocks.length + 2)).At (context.function.blocks.length + 2) := afterIf_at runTrue runFalse
      refine ⟨parent₃, order₃, last, (grows_to here ?_ under ?_).trans grows' (left.layout.embeds grows'.later)
        fun _ => ⟨_, there⟩⟩
      · simpa [leave] using later
      · exact there.bound

end Steps

/-! ## Functions -/

section Functions

variable {params locals results : List Ty} {decl : BlockDeclaration}

theorem prologue_names {Op : Type} :
    (prologue params locals : BlockContext Op).function.names = ["allocator", "return"] := by
  simp [prologue, store]

/-- The entry block is the root. -/
theorem startFunc_laid {Op : Type} : Laid [1] (below (fun _ => none) 1 0) [0]
    (startFunc params locals results decl : BlockContext Op) where
  layout := by
    have entry : Layout [] (fun _ => none) [0] ["allocator"] [] := by
      constructor <;> simp
      exact .refl
    have names : (startFunc params locals results decl : BlockContext Op).function.names = ["allocator", "return"] := by
      simp [startFunc, openLabel, prologue_names]
    rw [names]
    exact entry.newBlock rfl Nat.one_pos "return"
  located := by
    intro block there
    obtain rfl := there.unique (startFunc_at _ _ _ _)
    refine ⟨List.mem_singleton_self _, fun label member => ?_⟩
    obtain rfl := List.mem_singleton.mp member
    exact mayGo_new (List.mem_singleton_self _) below_new

theorem finish_names {Op : Type} (context : BlockContext Op) (block arity : Nat) :
    (context.finish block arity).function.names = context.function.names := by
  rcases arity with _ | arity
  · simp [finish]
  · cases top : context.stack <;> simp [finish, top]

theorem EmitsFunc.layout {func : Func I.Instr} {final : BlockContext I.Op} (emits : EmitsFunc I func final) :
    ∃ parent order, Layout [] parent order final.function.names final.edges := by
  obtain @⟨params, locals, results, inner, paramsOk, localsOk, resultsOk, run, closable, single⟩ := emits
  obtain ⟨parent, order, inside, _⟩ := run.laid startFunc_laid
  have top : inner.blockStack = [funcLabel I.Op params locals results func.decl] := run.blockStack
  have left := leave_laid .func (run.placed (.inr ⟨0, startFunc_at _ _ _ _⟩)) inside (top ▸ List.mem_cons_self)
    (by simp [leave, top])
  refine ⟨parent, order ++ [1], ?_⟩
  rw [finish_names, finish_edges]
  exact left.layout

/-- The history of edges is the graph. -/
theorem Traced.edge_iff {Op : Type} {function : Llvm.Function Op} {edges : List Edge} (traced : Traced function edges)
    {source target : Nat} : function.Edge source target ↔
      ∃ edge ∈ edges, edge.source = source ∧ edge.target = target := by
  rw [Function.Edge, traced.graph, List.mem_map]
  refine exists_congr fun edge => ?_
  rw [edgesFrom, List.mem_filter, beq_iff_eq, and_assoc]

theorem Layout.dominates {Op : Type} {function : Llvm.Function Op} {edges : List Edge} {order : List Nat}
    {parent : Nat → Option Nat} (layout : Layout [] parent order function.names edges) (traced : Traced function edges)
    {first second : Nat} (above : Above parent first second) : function.Dominates first second := by
  refine above.dominates (fun source target leads => ?_) layout.root
  obtain ⟨edge, member, rfl, rfl⟩ := traced.edge_iff.mp leads
  exact layout.bounds edge member

/-- An edge goes forward in the order of the blocks, or back to the entry of a loop. -/
theorem EmitsFunc.climbs {func : Func I.Instr} {final : BlockContext I.Op} (emits : EmitsFunc I func final) :
    ∃ rank : Nat → Nat, ∀ source target, final.function.Edge source target → rank source < rank target ∨
      IsLoopEntry final.function.names target ∧ final.function.Dominates target source := by
  have traced := emits.history.logged.traced
  obtain ⟨parent, order, layout⟩ := emits.layout
  refine ⟨order.idxOf, fun source target leads => ?_⟩
  obtain ⟨edge, member, rfl, rfl⟩ := traced.edge_iff.mp leads
  rcases layout.ordered edge member with before | ⟨is, above⟩
  · exact .inl before.idxOf_lt
  · exact .inr ⟨is, layout.dominates traced above⟩

/-- The graph of a translated function is reducible, and every cycle passes the entry of
a loop. -/
theorem visitFunc_reducible {func : Func I.Instr} {final : BlockContext I.Op} (built : visitFunc I func = .ok final) :
    final.function.Reducible ∧ ∀ block, Relation.TransGen final.function.Edge block block →
      ∃ entry, IsLoopEntry final.function.names entry ∧
        Relation.ReflTransGen final.function.Edge block entry ∧
          Relation.ReflTransGen final.function.Edge entry block := by
  obtain ⟨rank, climbs⟩ := (visitFunc_ok.mp built).climbs
  refine ⟨⟨rank, fun source target leads => (climbs source target leads).imp_right fun back => ?_⟩, ?_⟩
  · rw [← List.getElem?_map]
    exact back
  · intro block cycle
    exact cycle_stops (fun source target leads => (climbs source target leads).imp_right And.left) cycle

theorem visitFunc_reducible_leaveLoop :
    ∃ final, visitFunc controlOnly leaveLoop = .ok final ∧ final.function.Reducible := by
  obtain ⟨final, built⟩ := visitFunc_completes
    (show (visitFunc controlOnly leaveLoop).isOk from by decide +kernel)
  exact ⟨final, built, (visitFunc_reducible built).1⟩

end Functions

end WasmToLlvm.Block
