import Mathlib.Data.List.Nodup
import WasmToLlvm.Block.Structure
import WasmToLlvm.Library.Lists
import WasmToLlvm.Llvm.Numbering

/-!
# Phis and edges

The history of edges is the control-flow graph, and a phi has one entry for each
edge into its block, in the same order. What an entry records is the value that
the edge carries, but not always the block that the edge comes from.
-/

set_option autoImplicit false

namespace WasmToLlvm.Block

open Llvm Wasm Library BlockContext

/-- The edges into a block. -/
def edgesInto (edges : List Edge) (block : Nat) : List Edge :=
  edges.filter fun edge => edge.target == block

/-- The edges from a block. -/
def edgesFrom (edges : List Edge) (block : Nat) : List Edge :=
  edges.filter fun edge => edge.source == block

/-- The block that the phi entries for an edge name: the insertion point is cleared
before the explicit targets of a `br_table`, and a loop passes its own block. -/
def Edge.recorded (edge : Edge) : Option Nat :=
  match edge.kind with
  | .tableCase => none
  | .loopEntry => some edge.target
  | .fallThrough | .branch | .arm => some edge.source

/-- A phi of a block, with its position among the phis of the label. -/
structure PhiAt {Op : Type} (function : Function Op) (block id index : Nat) (type : Ty) : Prop where
  member : id ∈ function.body block
  found : function.insts[id]? = some (.phi index type)

/-- Phis agree with the control-flow graph: the blocks of their entries are the
predecessors, and the entry for an edge has the value that the edge carries for
the position of the phi. -/
structure PhisAgree {Op : Type} (context : BlockContext Op) : Prop where
  graph : ∀ block < context.function.blocks.length,
    context.function.successors block = (edgesFrom context.edges block).map Edge.target
  blocks : ∀ block id index type, PhiAt context.function block id index type →
    ((context.function.entries id).map (·.2)).Perm ((context.function.predecessors block).map some)
  values : ∀ block id index type, PhiAt context.function block id index type →
    ((context.function.entries id).map fun entry => (some entry.1, entry.2)).Perm
      ((edgesInto context.edges block).map fun edge => (edge.carried[index]?, some edge.source))

section Lists

variable {edges more : List Edge} {edge : Edge} {block : Nat}

@[simp] theorem edgesInto_append :
    edgesInto (edges ++ more) block = edgesInto edges block ++ edgesInto more block := by
  simp [edgesInto]

@[simp] theorem edgesFrom_append :
    edgesFrom (edges ++ more) block = edgesFrom edges block ++ edgesFrom more block := by
  simp [edgesFrom]

theorem edgesInto_fresh (bounded : ∀ edge ∈ edges, edge.target < block) :
    edgesInto edges block = [] := by
  rw [edgesInto, List.filter_eq_nil_iff]
  intro edge member
  have := bounded edge member
  simp only [beq_iff_eq]
  omega

end Lists

/-! ## The graph -/

/-- The history of edges is the graph. -/
structure Traced {Op : Type} (function : Function Op) (edges : List Edge) : Prop where
  numbered : function.Numbered
  bounded : ∀ edge ∈ edges,
    edge.source < function.blocks.length ∧ edge.target < function.blocks.length
  graph : ∀ block, function.successors block = (edgesFrom edges block).map Edge.target

section Traced

variable {Op : Type} {function : Function Op} {edges : List Edge} {block : Nat}

theorem traced_empty : Traced (.empty : Function Op) [] where
  numbered := Function.numbered_empty
  bounded := fun _ member => nomatch member
  graph := fun _ => rfl

theorem Traced.newBlock (traced : Traced function edges) (name : String) :
    Traced (function.newBlock name) edges where
  numbered := traced.numbered.newBlock name
  bounded := by
    intro edge member
    obtain ⟨source, target⟩ := traced.bounded edge member
    simp only [Function.blocks_length_newBlock]
    omega
  graph := by simpa using traced.graph

/-- Instructions without targets. -/
theorem Traced.appendAll (traced : Traced function edges) (bound : block < function.blocks.length)
    {insts : List (Inst Op)} (none : ∀ inst ∈ insts, inst.targets = []) :
    Traced (function.appendAll block insts) edges where
  numbered := traced.numbered.appendAll block insts
  bounded := by simpa using traced.bounded
  graph := fun other => (traced.numbered.successors_appendAll bound none).trans (traced.graph other)

/-- A terminator together with its edges. -/
theorem Traced.branch (traced : Traced function edges) (bound : block < function.blocks.length)
    {inst : Inst Op} {more : List Edge} (fromHere : ∀ edge ∈ more, edge.source = block)
    (goals : more.map Edge.target = inst.targets)
    (inside : ∀ target ∈ inst.targets, target < function.blocks.length) :
    Traced (function.append block inst) (edges ++ more) where
  numbered := traced.numbered.append block inst
  bounded := by
    intro edge member
    rw [Function.blocks_length_append]
    rcases List.mem_append.mp member with member | member
    · exact traced.bounded edge member
    · refine ⟨fromHere edge member ▸ bound, inside _ ?_⟩
      rw [← goals]
      exact List.mem_map_of_mem member
  graph := by
    intro other
    rw [traced.numbered.successors_append bound, traced.graph, edgesFrom_append, List.map_append]
    congr 1
    by_cases same : other = block
    · subst same
      have all : edgesFrom more other = more := by
        rw [edgesFrom, List.filter_eq_self]
        intro edge member
        simpa using fromHere edge member
      rw [if_pos rfl, all, goals]
    · have none : edgesFrom more other = [] := by
        rw [edgesFrom, List.filter_eq_nil_iff]
        intro edge member
        rw [fromHere edge member]
        simpa using fun equal : block = other => same equal.symm
      rw [if_neg same, none, List.map_nil]

theorem Traced.addIncomings (traced : Traced function edges) (entries : List (Nat × Value))
    (from? : Option Nat) (old : ∀ entry ∈ entries, entry.1 < function.insts.length) :
    Traced (function.addIncomings entries from?) edges where
  numbered := traced.numbered.addIncomings entries from? old
  bounded := traced.bounded
  graph := traced.graph

/-- A case of the switch at the end of a block. -/
theorem Traced.addCase (traced : Traced function edges) {front : List Nat} {switch default : Nat}
    {condition : Value} (last : function.body block = front ++ [switch])
    (found : function.insts[switch]? = some (.switch condition default))
    (bound : block < function.blocks.length) (edge : Edge) (fromHere : edge.source = block)
    (inside : edge.target < function.blocks.length) (value : Nat) :
    Traced (function.addCase switch value edge.target) (edges ++ [edge]) where
  numbered := traced.numbered.addCase value edge.target (List.getElem?_eq_some_iff.mp found).1
  bounded := by
    intro other member
    rcases List.mem_append.mp member with member | member
    · exact traced.bounded other member
    · obtain rfl := List.mem_singleton.mp member
      exact ⟨fromHere ▸ bound, inside⟩
  graph := by
    intro other
    rw [traced.numbered.successors_addCase last found, traced.graph, edgesFrom_append,
      List.map_append]
    congr 1
    by_cases same : other = block
    · simp [edgesFrom, same, fromHere]
    · have different : ¬ block = other := fun equal => same equal.symm
      simp [edgesFrom, same, fromHere, different]

end Traced

/-! ## Phis of a block -/

section PhiAt

variable {Op : Type} {function : Function Op} {block target id index : Nat} {type : Ty}
  {insts : List (Inst Op)}

theorem PhiAt.append {inst : Inst Op} (phi : PhiAt function block id index type) :
    PhiAt (function.append target inst) block id index type := by
  have old := (List.getElem?_eq_some_iff.mp phi.found).1
  refine ⟨?_, by rw [Function.insts_append, List.getElem?_append_left old, phi.found]⟩
  rw [Function.body_append]
  split
  · exact List.mem_append_left _ phi.member
  · exact phi.member

theorem PhiAt.of_append (numbered : function.Numbered) {inst : Inst Op}
    (phi : PhiAt (function.append target inst) block id index type) :
    PhiAt function block id index type ∨
      block = target ∧ id = function.insts.length ∧ inst = .phi index type := by
  have found := phi.found
  rcases Function.mem_body_append phi.member with member | ⟨rfl, here⟩
  · rw [Function.insts_append, List.getElem?_append_left (numbered.bodies _ _ member)] at found
    exact .inl ⟨member, found⟩
  · rw [Function.insts_append, List.getElem?_concat_length] at found
    exact .inr ⟨here, rfl, Option.some.inj found⟩

theorem PhiAt.appendAll (phi : PhiAt function block id index type) :
    PhiAt (function.appendAll target insts) block id index type := by
  induction insts generalizing function with
  | nil => exact phi
  | cons inst insts ih => exact ih phi.append

theorem PhiAt.of_appendAll (numbered : function.Numbered)
    (phi : PhiAt (function.appendAll target insts) block id index type) :
    PhiAt function block id index type ∨
      block = target ∧ ∃ j, id = function.insts.length + j ∧ insts[j]? = some (.phi index type) := by
  induction insts generalizing function with
  | nil => exact .inl phi
  | cons inst insts ih =>
      rcases ih (numbered.append target inst) phi with old | ⟨here, j, rfl, found⟩
      · rcases old.of_append numbered with old | ⟨here, rfl, rfl⟩
        · exact .inl old
        · exact .inr ⟨here, 0, rfl, rfl⟩
      · refine .inr ⟨here, j + 1, ?_, found⟩
        simp only [Function.insts_append, List.length_append, List.length_singleton]
        omega

theorem phiAt_appendAll_new (bound : target < function.blocks.length) {j : Nat}
    (found : insts[j]? = some (.phi index type)) :
    PhiAt (function.appendAll target insts) target (function.insts.length + j) index type := by
  have inside := (List.getElem?_eq_some_iff.mp found).1
  refine ⟨?_, ?_⟩
  · rw [Function.body_appendAll_self bound]
    refine List.mem_append_right _ (List.mem_range'_1.mpr ?_)
    omega
  · rw [Function.insts_appendAll, List.getElem?_append_right (by omega), Nat.add_sub_cancel_left,
      found]

theorem phiAt_newBlock {name : String} :
    PhiAt (function.newBlock name) block id index type ↔ PhiAt function block id index type := by
  constructor
  · intro phi
    exact ⟨by simpa using phi.member, phi.found⟩
  · intro phi
    exact ⟨by simpa using phi.member, phi.found⟩

/-- Code without phis. -/
theorem phiAt_appendAll_other (numbered : function.Numbered)
    (other : ∀ inst ∈ insts, inst.isPhi = false) :
    PhiAt (function.appendAll target insts) block id index type ↔
      PhiAt function block id index type := by
  refine ⟨fun phi => ?_, PhiAt.appendAll⟩
  rcases phi.of_appendAll numbered with old | ⟨_, j, _, found⟩
  · exact old
  · cases other _ (List.mem_of_getElem? found)

end PhiAt

/-- A label has exactly the phis of the block it branches to. -/
structure LabelPhis {Op : Type} (function : Function Op) (label : BreakoutTarget) : Prop where
  bound : label.target < function.blocks.length
  phis : ∀ id index type,
    PhiAt function label.target id index type ↔ label.phis[index]? = some ⟨id, type⟩

/-- The entries of a phi, one for each edge into its block. -/
def Recorded {Op : Type} (function : Function Op) (edges : List Edge) : Prop :=
  ∀ block id index type, PhiAt function block id index type →
    (function.entries id).map (fun entry => (some entry.1, entry.2)) =
      (edgesInto edges block).map fun edge => (edge.carried[index]?, edge.recorded)

section Recorded

variable {Op : Type} {function : Function Op} {edges : List Edge} {block : Nat}
  {label : BreakoutTarget} {insts : List (Inst Op)}

theorem LabelPhis.ids_nodup (labelled : LabelPhis function label) :
    (label.phis.map PHINode.id).Nodup := by
  rw [List.nodup_iff_getElem?_ne_getElem?]
  intro i j less inside same
  simp only [List.getElem?_map, List.length_map] at same inside
  have found := List.getElem?_eq_getElem (Nat.lt_trans less inside)
  have found' := List.getElem?_eq_getElem inside
  rw [found, found', Option.map_some, Option.map_some, Option.some.injEq] at same
  have phi : function.insts[label.phis[i].id]? = some (.phi i _) :=
    ((labelled.phis _ i _).mpr found).found
  have phi' : function.insts[label.phis[j].id]? = some (.phi j _) :=
    ((labelled.phis _ j _).mpr found').found
  rw [same, phi'] at phi
  cases phi
  exact Nat.lt_irrefl _ less

/-- Code without phis, or phis in another block, do not concern a label. -/
theorem LabelPhis.appendAll (labelled : LabelPhis function label) (numbered : function.Numbered)
    (apart : label.target ≠ block ∨ ∀ inst ∈ insts, inst.isPhi = false) :
    LabelPhis (function.appendAll block insts) label where
  bound := by simpa using labelled.bound
  phis := by
    intro id index type
    rw [← labelled.phis]
    rcases apart with different | other
    · refine ⟨fun phi => ?_, PhiAt.appendAll⟩
      rcases phi.of_appendAll numbered with old | ⟨here, _⟩
      · exact old
      · exact absurd here different
    · exact phiAt_appendAll_other numbered other

theorem LabelPhis.newBlock (labelled : LabelPhis function label) (name : String) :
    LabelPhis (function.newBlock name) label where
  bound := by simpa using Nat.lt_succ_of_lt labelled.bound
  phis := fun id index type => phiAt_newBlock.trans (labelled.phis id index type)

theorem LabelPhis.addIncomings (labelled : LabelPhis function label)
    (entries : List (Nat × Value)) (from? : Option Nat) :
    LabelPhis (function.addIncomings entries from?) label where
  bound := labelled.bound
  phis := by
    intro id index type
    rw [← labelled.phis]
    exact ⟨fun phi => ⟨phi.member, phi.found⟩, fun phi => ⟨phi.member, phi.found⟩⟩

theorem LabelPhis.addCase (labelled : LabelPhis function label) (switch value target : Nat) :
    LabelPhis (function.addCase switch value target) label where
  bound := labelled.bound
  phis := by
    intro id index type
    rw [← labelled.phis]
    exact ⟨fun phi => ⟨phi.member, phi.found⟩, fun phi => ⟨phi.member, phi.found⟩⟩

theorem Recorded.addCase (recorded : Recorded function edges) (switch value target : Nat) :
    Recorded (function.addCase switch value target) edges :=
  fun block id index type phi => recorded block id index type ⟨phi.member, phi.found⟩

theorem recorded_empty : Recorded (.empty : Function Op) [] :=
  fun _ _ _ _ phi => nomatch phi.member

theorem Recorded.newBlock (recorded : Recorded function edges) (name : String) :
    Recorded (function.newBlock name) edges :=
  fun block id index type phi => recorded block id index type (phiAt_newBlock.mp phi)

theorem Recorded.appendAll (recorded : Recorded function edges) (numbered : function.Numbered)
    (other : ∀ inst ∈ insts, inst.isPhi = false) : Recorded (function.appendAll block insts) edges := by
  intro target id index type phi
  have old := recorded target id index type ((phiAt_appendAll_other numbered other).mp phi)
  rw [← old]
  simp [Function.entries]

/-- Phis in a block that no edge enters yet. -/
theorem Recorded.appendPhis (recorded : Recorded function edges) (numbered : function.Numbered)
    (fresh : edgesInto edges block = []) : Recorded (function.appendAll block insts) edges := by
  intro target id index type phi
  have sameEntries : (function.appendAll block insts).entries id = function.entries id := by
    simp [Function.entries]
  rw [sameEntries]
  rcases phi.of_appendAll numbered with old | ⟨rfl, j, rfl, _⟩
  · exact recorded target id index type old
  · rw [fresh, List.map_nil, List.map_eq_nil_iff, Function.entries, List.map_eq_nil_iff,
      List.filter_eq_nil_iff]
    intro entry member
    have := numbered.incoming entry member
    simp only [beq_iff_eq]
    omega

/-- Edges to blocks without phis. -/
theorem Recorded.addEdges (recorded : Recorded function edges) {more : List Edge}
    (empty : ∀ edge ∈ more, function.body edge.target = []) :
    Recorded function (edges ++ more) := by
  intro block id index type phi
  have none : edgesInto more block = [] := by
    rw [edgesInto, List.filter_eq_nil_iff]
    intro edge member same
    have inside := phi.member
    rw [← eq_of_beq same, empty edge member] at inside
    cases inside
  rw [recorded block id index type phi, edgesInto_append, none, List.append_nil]

theorem entriesFor_filter {phis : List PHINode} {stack : List Value} {phi : PHINode} {index : Nat}
    (unique : (phis.map PHINode.id).Nodup) (enough : phis.length ≤ stack.length)
    (found : phis[index]? = some phi) :
    ∃ value, (carriedValues stack phis.length)[index]? = some value ∧
      (entriesFor phis stack).filter (fun entry => entry.1 == phi.id) = [(phi.id, value)] := by
  have inside := (List.getElem?_eq_some_iff.mp found).1
  have below : phis.length - 1 - index < stack.length := by omega
  have mirrored : phis.reverse[phis.length - 1 - index]? = some phi := by
    rw [List.getElem?_reverse (by omega), ← found]
    congr 1
    omega
  have fits : (stack.take phis.length).length = phis.length := by
    rw [List.length_take]
    omega
  refine ⟨stack[phis.length - 1 - index], ?_, ?_⟩
  · rw [carriedValues, List.getElem?_reverse (by omega), fits, List.getElem?_take_of_lt (by omega),
      List.getElem?_eq_getElem below]
  · refine filter_key (fun entry : Nat × Value => entry.1)
      (phi.id, stack[phis.length - 1 - index]) ?_ ?_
    · have keys : (entriesFor phis stack).map (fun entry => entry.1) =
          (phis.map PHINode.id).reverse := by
        rw [entriesFor, List.map_map, ← List.map_reverse]
        have firsts : (phis.reverse.zip stack).map Prod.fst = phis.reverse :=
          List.map_fst_zip (by simpa using enough)
        conv_rhs => rw [← firsts]
        rw [List.map_map]
        rfl
      rw [keys]
      exact List.nodup_reverse.mpr unique
    · refine List.mem_map.mpr ⟨(phi, _), List.mem_of_getElem? (i := phis.length - 1 - index) ?_, rfl⟩
      rw [List.getElem?_zip_eq_some]
      exact ⟨mirrored, List.getElem?_eq_getElem below⟩

theorem entriesFor_filter_other {phis : List PHINode} {stack : List Value} {id : Nat}
    (absent : id ∉ phis.map PHINode.id) :
    (entriesFor phis stack).filter (fun entry => entry.1 == id) = [] := by
  rw [List.filter_eq_nil_iff]
  rintro entry member same
  obtain ⟨⟨phi, value⟩, inZip, rfl⟩ := List.mem_map.mp member
  have inPhis := List.mem_reverse.mp (List.of_mem_zip inZip).1
  exact absent (List.mem_map.mpr ⟨phi, inPhis, by simpa using same⟩)

/-- An edge to a label, with the values on top of the stack as entries for its phis. -/
theorem Recorded.flow (recorded : Recorded function edges) (numbered : function.Numbered)
    (labelled : LabelPhis function label) {stack : List Value} {from? : Option Nat} {edge : Edge}
    (enough : label.phis.length ≤ stack.length) (goal : edge.target = label.target)
    (carried : edge.carried = carriedValues stack label.phis.length)
    (source : edge.recorded = from?) :
    Recorded (function.addIncomings (entriesFor label.phis stack) from?) (edges ++ [edge]) := by
  intro block id index type phi
  have old := recorded block id index type ⟨phi.member, phi.found⟩
  have more : (function.addIncomings (entriesFor label.phis stack) from?).entries id =
      function.entries id ++
        ((entriesFor label.phis stack).filter fun entry => entry.1 == id).map fun entry =>
          (entry.2, from?) := by
    simp [Function.entries, Function.addIncomings, List.filter_map, Function.comp_def]
  rw [more, List.map_append, old, edgesInto_append, List.map_append]
  congr 1
  by_cases here : block = label.target
  · subst here
    obtain ⟨value, isCarried, filtered⟩ := entriesFor_filter labelled.ids_nodup enough
      ((labelled.phis id index type).mp ⟨phi.member, phi.found⟩)
    rw [filtered]
    simp [edgesInto, goal, carried, isCarried, source]
  · have different : ¬ edge.target = block := fun same => here (same.symm.trans goal)
    have absent : id ∉ label.phis.map PHINode.id := by
      intro member
      obtain ⟨other, inPhis, rfl⟩ := List.mem_map.mp member
      obtain ⟨j, found⟩ := List.mem_iff_getElem?.mp inPhis
      have there := ((labelled.phis _ j _).mpr found).member
      exact here (numbered.once _ _ _ phi.member there)
    rw [entriesFor_filter_other absent]
    simp [edgesInto, different]

theorem LabelPhis.old (labelled : LabelPhis function label) (stack : List Value) :
    ∀ entry ∈ entriesFor label.phis stack, entry.1 < function.insts.length := by
  intro entry member
  obtain ⟨⟨phi, value⟩, inZip, rfl⟩ := List.mem_map.mp member
  obtain ⟨index, found⟩ := List.mem_iff_getElem?.mp (List.mem_reverse.mp (List.of_mem_zip inZip).1)
  exact (List.getElem?_eq_some_iff.mp ((labelled.phis _ index _).mpr found).found).1

/-- New phis in an empty block make a label. -/
theorem labelPhis_new (numbered : function.Numbered) (bound : label.target < function.blocks.length)
    (fresh : function.body label.target = [])
    (same : ∀ id index type, label.phis[index]? = some ⟨id, type⟩ ↔
      ∃ j, id = function.insts.length + j ∧ insts[j]? = some (.phi index type)) :
    LabelPhis (function.appendAll label.target insts) label where
  bound := by simpa using bound
  phis := by
    intro id index type
    rw [same]
    constructor
    · intro phi
      rcases phi.of_appendAll numbered with old | ⟨_, found⟩
      · exact absurd old.member (by simp [fresh])
      · exact found
    · rintro ⟨j, rfl, found⟩
      exact phiAt_appendAll_new bound found

end Recorded

section LabelLists

variable {Op : Type}

theorem phiInsts_getElem? (index : Nat) (types : List Ty) (j : Nat) :
    (phiInsts index types : List (Inst Op))[j]? = types[j]?.map fun type => .phi (index + j) type := by
  induction types generalizing index j with
  | nil => simp [phiInsts]
  | cons type types ih =>
      cases j with
      | zero => simp [phiInsts]
      | succ j =>
          simp only [phiInsts, List.getElem?_cons_succ, ih]
          congr 2
          funext type
          congr 1
          omega

theorem resultPhis_getElem? (next : Nat) (types : List Ty) (j : Nat) :
    (resultPhis next types)[j]? = types[j]?.map fun type => ⟨next + j, type⟩ := by
  induction types generalizing next j with
  | nil => simp [resultPhis]
  | cons type types ih =>
      cases j with
      | zero => simp [resultPhis]
      | succ j =>
          simp only [resultPhis, List.getElem?_cons_succ, ih]
          congr 2
          funext type
          congr 1
          omega

theorem paramInsts_getElem? (types : List Ty) (j : Nat) :
    (paramInsts types : List (Inst Op))[j]? =
      types[j]?.map fun type => .phi (types.length - 1 - j) type := by
  induction types generalizing j with
  | nil => simp [paramInsts]
  | cons type types ih =>
      cases j with
      | zero => simp [paramInsts]
      | succ j =>
          simp only [paramInsts, List.getElem?_cons_succ, ih, List.length_cons]
          congr 2
          funext type
          congr 1
          omega

theorem paramPhis_eq (next : Nat) (types : List Ty) (phis : List PHINode) :
    paramPhis next types phis = (resultPhis next types).reverse ++ phis := by
  induction types generalizing next phis with
  | nil => rfl
  | cons type types ih => simp [paramPhis, resultPhis, ih]

theorem exitLabel_phis (context : BlockContext Op) (lty : LabelType) (exit : Nat)
    (decl : BlockDeclaration) (types : List Ty) (id index : Nat) (type : Ty) :
    (context.exitLabel lty exit decl types).phis[index]? = some ⟨id, type⟩ ↔
      ∃ j, id = context.function.insts.length + j ∧
        (phiInsts 0 types : List (Inst Op))[j]? = some (.phi index type) := by
  simp only [exitLabel, resultPhis_getElem?, phiInsts_getElem?, Option.map_eq_some_iff, Nat.zero_add]
  constructor
  · rintro ⟨found, isType, same⟩
    cases same
    exact ⟨index, rfl, type, isType, rfl⟩
  · rintro ⟨j, rfl, found, isType, same⟩
    cases same
    exact ⟨type, isType, rfl⟩

theorem loopLabel_phis (context : BlockContext Op) (entry : Nat) (decl : BlockDeclaration)
    (types : List Ty) (id index : Nat) (type : Ty) :
    (context.loopLabel entry decl types).phis[index]? = some ⟨id, type⟩ ↔
      ∃ j, id = context.function.insts.length + j ∧
        (paramInsts types : List (Inst Op))[j]? = some (.phi index type) := by
  simp only [loopLabel, paramPhis_eq, List.append_nil, paramInsts_getElem?, Option.map_eq_some_iff]
  constructor
  · intro found
    have inside : index < types.length := by simpa using (List.getElem?_eq_some_iff.mp found).1
    rw [List.getElem?_reverse (by simpa using inside), resultPhis_length, resultPhis_getElem?,
      Option.map_eq_some_iff] at found
    obtain ⟨other, isType, same⟩ := found
    cases same
    refine ⟨types.length - 1 - index, rfl, type, isType, ?_⟩
    congr 1
    omega
  · rintro ⟨j, rfl, other, isType, same⟩
    have inside := (List.getElem?_eq_some_iff.mp isType).1
    cases same
    rw [List.getElem?_reverse (by simp; omega), resultPhis_length, resultPhis_getElem?]
    have back : types.length - 1 - (types.length - 1 - j) = j := by omega
    rw [back, isType]
    rfl

theorem resultPhis_ids (next : Nat) (types : List Ty) :
    (resultPhis next types).map PHINode.id = List.range' next types.length := by
  induction types generalizing next with
  | nil => rfl
  | cons type types ih => simp [resultPhis, ih, List.range'_succ]

/-- The first entries of a loop's phis are those of an edge to its label. -/
theorem loopEntries_eq (context : BlockContext Op) (entry : Nat) (decl : BlockDeclaration)
    (types : List Ty) (stack : List Value) :
    loopEntries context.function.insts.length types.length stack =
      entriesFor (context.loopLabel entry decl types).phis stack := by
  simp only [loopEntries, entriesFor, loopLabel, paramPhis_eq, List.append_nil, List.reverse_reverse,
    ← resultPhis_ids, List.zip_map_left]
  rfl

end LabelLists

/-! ## Runs -/

/-- The graph and the phis between two expressions. -/
structure Logged {Op : Type} (function : Function Op) (edges : List Edge)
    (labels : List BreakoutTarget) : Prop where
  traced : Traced function edges
  recorded : Recorded function edges
  labelled : ∀ label ∈ labels, LabelPhis function label

section Logged

variable {Op : Type} {function : Function Op} {edges more : List Edge}
  {labels : List BreakoutTarget} {block : Nat} {label : BreakoutTarget}

theorem Logged.newBlock (logged : Logged function edges labels) (name : String) :
    Logged (function.newBlock name) edges labels where
  traced := logged.traced.newBlock name
  recorded := logged.recorded.newBlock name
  labelled := fun label member => (logged.labelled label member).newBlock name

/-- Straight code. -/
theorem Logged.appendPlains (logged : Logged function edges labels)
    (bound : block < function.blocks.length) {insts : List (Inst Op)}
    (plain : ∀ inst ∈ insts, inst.isPlain) :
    Logged (function.appendAll block insts) edges labels := by
  have numbered := logged.traced.numbered
  have other : ∀ inst ∈ insts, inst.isPhi = false := by
    intro inst member
    have isPlain := plain inst member
    cases inst <;> first | rfl | cases isPlain
  refine ⟨logged.traced.appendAll bound fun inst member => ?_, logged.recorded.appendAll numbered other,
    fun label member => (logged.labelled label member).appendAll numbered (.inr other)⟩
  have isPlain := plain inst member
  cases inst <;> first | rfl | cases isPlain

/-- A terminator with edges to blocks without phis. -/
theorem Logged.arms (logged : Logged function edges labels) (bound : block < function.blocks.length)
    {inst : Inst Op} (terminator : inst.isTerminator) (fromHere : ∀ edge ∈ more, edge.source = block)
    (goals : more.map Edge.target = inst.targets)
    (inside : ∀ target ∈ inst.targets, target < function.blocks.length)
    (empty : ∀ edge ∈ more, function.body edge.target = []) :
    Logged (function.append block inst) (edges ++ more) labels := by
  have numbered := logged.traced.numbered
  have other : ∀ inst' ∈ [inst], inst'.isPhi = false := by
    intro inst' member
    obtain rfl := List.mem_singleton.mp member
    cases inst' <;> first | rfl | cases terminator
  refine ⟨logged.traced.branch bound fromHere goals inside, ?_,
    fun label member => (logged.labelled label member).appendAll numbered (.inr other)⟩
  exact (logged.recorded.addEdges empty).appendAll numbered other

/-- A terminator with an edge to a label and others to blocks without phis. -/
theorem Logged.branch (logged : Logged function edges labels) (bound : block < function.blocks.length)
    (labelled : LabelPhis function label) {stack : List Value}
    (enough : label.phis.length ≤ stack.length) {inst : Inst Op} (terminator : inst.isTerminator)
    {edge : Edge} (source : edge.source = block) (goal : edge.target = label.target)
    (carried : edge.carried = carriedValues stack label.phis.length)
    (kind : edge.recorded = some block) (fromHere : ∀ edge ∈ more, edge.source = block)
    (goals : label.target :: more.map Edge.target = inst.targets)
    (inside : ∀ edge ∈ more, edge.target < function.blocks.length)
    (empty : ∀ edge ∈ more, function.body edge.target = []) :
    Logged ((function.addIncomings (entriesFor label.phis stack) (some block)).append block inst)
      (edges ++ (edge :: more)) labels := by
  have numbered := logged.traced.numbered
  have other : ∀ inst' ∈ [inst], inst'.isPhi = false := by
    intro inst' member
    obtain rfl := List.mem_singleton.mp member
    cases inst' <;> first | rfl | cases terminator
  have old := labelled.old stack
  have numbered' := numbered.addIncomings _ (some block) old
  refine ⟨(logged.traced.addIncomings _ _ old).branch bound ?_ ?_ ?_, ?_,
    fun label member => ((logged.labelled label member).addIncomings _ _).appendAll numbered' (.inr other)⟩
  · intro other member
    rcases List.mem_cons.mp member with rfl | member
    · exact source
    · exact fromHere other member
  · rw [List.map_cons, goal, goals]
  · intro target member
    rw [← goals] at member
    rcases List.mem_cons.mp member with rfl | member
    · exact labelled.bound
    · obtain ⟨other, inMore, rfl⟩ := List.mem_map.mp member
      exact inside other inMore
  · have flowed := (logged.recorded.flow numbered labelled enough goal carried kind).addEdges empty
    rw [List.append_assoc] at flowed
    exact flowed.appendAll numbered' other

/-- A branch with one target, which is a label. -/
theorem Logged.branchOnly (logged : Logged function edges labels)
    (bound : block < function.blocks.length) (labelled : LabelPhis function label)
    {stack : List Value} (enough : label.phis.length ≤ stack.length) :
    Logged ((function.addIncomings (entriesFor label.phis stack) (some block)).append block
      (.br label.target))
      (edges ++ [⟨.branch, block, label.target, carriedValues stack label.phis.length⟩]) labels :=
  logged.branch bound labelled enough (by rfl) rfl rfl rfl rfl (by simp) (by rfl) (by simp) (by simp)

/-- An explicit target of the `br_table` at the end of a block. -/
theorem Logged.target (logged : Logged function edges labels) (bound : block < function.blocks.length)
    (labelled : LabelPhis function label) {stack : List Value}
    (enough : label.phis.length ≤ stack.length) {front : List Nat} {switch default : Nat}
    {condition : Value} (last : function.body block = front ++ [switch])
    (found : function.insts[switch]? = some (.switch condition default)) (value : Nat) :
    Logged ((function.addCase switch value label.target).addIncomings (entriesFor label.phis stack) none)
      (edges ++ [⟨.tableCase, block, label.target, carriedValues stack label.phis.length⟩]) labels := by
  have numbered := logged.traced.numbered
  have traced : Traced (function.addCase switch value label.target)
      (edges ++ [⟨.tableCase, block, label.target, carriedValues stack label.phis.length⟩]) :=
    logged.traced.addCase last found bound
      ⟨.tableCase, block, label.target, carriedValues stack label.phis.length⟩ rfl labelled.bound value
  refine ⟨traced.addIncomings _ _ (labelled.old stack), ?_,
    fun label member => ((logged.labelled label member).addCase _ _ _).addIncomings _ _⟩
  exact (logged.recorded.addCase switch value label.target).flow traced.numbered
    (labelled.addCase _ _ _) enough rfl rfl rfl

/-- A label with phis in an exit block. -/
theorem Logged.openExit (logged : Logged function edges labels)
    (bound : label.target < function.blocks.length) (fresh : function.body label.target = [])
    (noEdges : edgesInto edges label.target = [])
    {insts : List (Inst Op)} (phis : ∀ inst ∈ insts, inst.isPhi)
    (apart : ∀ other ∈ labels, other.target ≠ label.target)
    (same : ∀ id index type, label.phis[index]? = some ⟨id, type⟩ ↔
      ∃ j, id = function.insts.length + j ∧ insts[j]? = some (.phi index type)) :
    Logged (function.appendAll label.target insts) edges (label :: labels) := by
  have numbered := logged.traced.numbered
  refine ⟨logged.traced.appendAll bound fun inst member => ?_, logged.recorded.appendPhis numbered noEdges,
    fun other member => ?_⟩
  · have isPhi := phis inst member
    cases inst <;> first | rfl | cases isPhi
  · rcases List.mem_cons.mp member with rfl | member
    · exact labelPhis_new numbered bound fresh same
    · exact (logged.labelled other member).appendAll numbered (.inl (apart other member))

/-- A loop with its label and the edge into it. -/
theorem Logged.openLoop (logged : Logged function edges labels) (label : BreakoutTarget)
    (bound : block < function.blocks.length) (name : String) (here : label.target = function.blocks.length) {stack : List Value}
    (enough : label.phis.length ≤ stack.length) {insts : List (Inst Op)}
    (phis : ∀ inst ∈ insts, inst.isPhi)
    (same : ∀ id index type, label.phis[index]? = some ⟨id, type⟩ ↔
      ∃ j, id = function.insts.length + 1 + j ∧ insts[j]? = some (.phi index type)) :
    Logged ((((function.newBlock name).append block (.br label.target)).appendAll label.target
        insts).addIncomings (entriesFor label.phis stack) (some label.target))
      (edges ++ [⟨.loopEntry, block, label.target, carriedValues stack label.phis.length⟩])
      (label :: labels) := by
  have created := logged.newBlock name
  have old : block < (function.newBlock name).blocks.length := by simp; omega
  have isNew : label.target < (function.newBlock name).blocks.length := by simp [here]
  have noTargets : ∀ inst ∈ insts, inst.targets = [] := by
    intro inst member
    have isPhi := phis inst member
    cases inst <;> first | rfl | cases isPhi
  have branched : Traced ((function.newBlock name).append block (.br label.target))
      (edges ++ [⟨.loopEntry, block, label.target, carriedValues stack label.phis.length⟩]) :=
    created.traced.branch old (by simp) (by simp [Inst.targets]) (by simpa [Inst.targets] using isNew)
  have opened := branched.appendAll (by simpa using isNew) noTargets
  have labelled : LabelPhis (((function.newBlock name).append block (.br label.target)).appendAll
      label.target insts) label := by
    refine labelPhis_new branched.numbered (by simpa using isNew) ?_ (by simpa using same)
    rw [Function.body_append_of_ne (by omega), Function.body_newBlock, Function.body_eq_nil (by omega)]
  have noEdges : edgesInto edges label.target = [] :=
    edgesInto_fresh fun edge member => here ▸ (logged.traced.bounded edge member).2
  refine ⟨opened.addIncomings _ _ (labelled.old stack), ?_, fun other member => ?_⟩
  · have branchRecorded : Recorded ((function.newBlock name).appendAll block [.br label.target]) edges :=
      created.recorded.appendAll created.traced.numbered (by simp [Inst.isPhi])
    have recorded : Recorded (((function.newBlock name).append block (.br label.target)).appendAll
        label.target insts) edges := branchRecorded.appendPhis branched.numbered noEdges
    exact recorded.flow opened.numbered labelled enough rfl rfl rfl
  · refine LabelPhis.addIncomings ?_ _ _
    rcases List.mem_cons.mp member with rfl | member
    · exact labelled
    · have apart : other.target ≠ label.target := by
        have := (logged.labelled other member).bound
        omega
      have branchedOver : LabelPhis ((function.newBlock name).appendAll block [.br label.target]) other :=
        (created.labelled other member).appendAll created.traced.numbered
          (.inr (by simp [Inst.isPhi]))
      exact branchedOver.appendAll branched.numbered (.inl apart)

end Logged

variable {I : InstructionSet}

abbrev BlockContext.Logged {Op : Type} (context : BlockContext Op) : Prop :=
  Block.Logged context.function context.edges context.blockStack

theorem addTargets_logged {Op : Type} {context : BlockContext Op} {block switch default : Nat}
    {condition : Value} {front : List Nat} {labels : List BreakoutTarget} (logged : context.Logged)
    (bound : block < context.function.blocks.length)
    (last : context.function.body block = front ++ [switch])
    (found : context.function.insts[switch]? = some (.switch condition default))
    (reached : ∀ label ∈ labels, LabelPhis context.function label ∧
      label.phis.length ≤ context.stack.length) (i : Nat) :
    (context.addTargets switch block labels i).Logged := by
  induction labels generalizing context i with
  | nil => exact logged
  | cons label labels ih =>
      obtain ⟨labelled, enough⟩ := reached label List.mem_cons_self
      rw [BlockContext.addTargets]
      have next : (context.addTarget switch block i label).Logged :=
        logged.target bound labelled enough last found i
      refine ih next bound last found ?_ (i + 1)
      intro other member
      obtain ⟨labelled, enough⟩ := reached other (List.mem_cons_of_mem _ member)
      exact ⟨(labelled.addCase _ _ _).addIncomings _ _, enough⟩

theorem compareZero_logged {context : BlockContext I.Op} {block : Nat} (here : context.At block)
    (logged : context.Logged) (value : Value) (rest : List Value) :
    (context.compareZero block value rest).Logged :=
  logged.appendPlains here.bound (by simp [Inst.isPlain])

theorem startTable_last {context : BlockContext I.Op} {block : Nat} (here : context.At block)
    {value : Value} {rest : List Value} {label : BreakoutTarget} :
    (context.startTable block value rest label).function.body block =
      context.function.body block ++ [context.function.insts.length] :=
  Function.body_append_self (by exact here.bound)

theorem startTable_switch {context : BlockContext I.Op} {block : Nat} {value : Value}
    {rest : List Value} {label : BreakoutTarget} :
    (context.startTable block value rest label).function.insts[context.function.insts.length]? =
      some (.switch value label.target) := by
  simp [startTable, branchTo]

theorem Step.logged {context next : BlockContext I.Op} {block : Nat} {expr : Expr I.Instr}
    (step : Step I context block expr next) (here : context.At block) (logged : context.Logged) :
    next.Logged := by
  have reached : ∀ {depth : Nat} {label : BreakoutTarget} {rest : List Value},
      Reaches (context.withStack rest) depth label → LabelPhis context.function label :=
    fun reaches => logged.labelled _ (List.mem_of_getElem? reaches.found)
  cases step with
  | straight code ran =>
      refine logged.appendPlains here.bound fun inst member => ?_
      obtain ⟨plain, _, rfl⟩ := List.mem_map.mp member
      rfl
  | unreachable =>
      have closed : Block.Logged (context.function.append block .unreachable) (context.edges ++ [])
          context.blockStack :=
        logged.arms here.bound (by rfl) (by simp) (by rfl) (by simp [Inst.targets]) (by simp)
      rw [List.append_nil] at closed
      exact closed
  | br branches =>
      exact logged.branchOnly here.bound (reached branches.toReaches) branches.enough
  | return_ outermost branches =>
      exact logged.branchOnly here.bound (reached branches.toReaches) branches.enough
  | @brIf _ value rest label top branches =>
      have blocks : (context.compareZero block value rest).function.blocks.length =
          context.function.blocks.length := compareZero_blocks context block value rest
      have created : ((context.compareZero block value rest).newBlock "brif_next").Logged :=
        (compareZero_logged here logged value rest).newBlock "brif_next"
      have old : block < ((context.compareZero block value rest).newBlock
          "brif_next").function.blocks.length := by
        have := here.bound
        simp [blocks]
        omega
      have labelled := created.labelled _ (List.mem_of_getElem? branches.found)
      have next : context.function.blocks.length <
          ((context.compareZero block value rest).newBlock "brif_next").function.blocks.length := by
        simp [blocks]
      have fresh : ((context.compareZero block value rest).newBlock "brif_next").function.body
          context.function.blocks.length = [] := by
        simp [Function.body_eq_nil, blocks]
      have branched : Block.Logged (context.branchOrNext block value rest label).function
          (context.edges ++ ⟨.branch, block, label.target, carriedValues rest label.phis.length⟩ ::
            [⟨.arm, block, context.function.blocks.length, []⟩]) context.blockStack :=
        created.branch old labelled branches.enough (by rfl) rfl rfl rfl rfl (by simp) (by rfl)
          (by simpa using next) (by simpa using fresh)
      rw [List.append_cons] at branched
      exact branched
  | @brTable _ _ value rest label labels top branches all =>
      have started : Block.Logged (context.startTable block value rest label).function
          (context.edges ++ [⟨.branch, block, label.target, carriedValues rest label.phis.length⟩])
          context.blockStack :=
        logged.branch here.bound (reached branches.toReaches) branches.enough (by rfl) rfl rfl rfl rfl
          (by simp) (by rfl) (by simp) (by simp)
      refine addTargets_logged started ?_ (startTable_last here) startTable_switch ?_ 0
      · simpa [startTable, branchTo] using here.bound
      · intro other member
        obtain ⟨depth, _, reaches⟩ := Reaches.of_mem all member
        exact ⟨started.labelled _ (List.mem_of_getElem? reaches.found), reaches.enough⟩

section Blocks

variable {context : BlockContext I.Op} {block : Nat} {decl : BlockDeclaration} {types : List Ty}

theorem labels_apart (logged : context.Logged) {exit : Nat}
    (isNew : context.function.blocks.length ≤ exit) :
    ∀ other ∈ context.blockStack, other.target ≠ exit := by
  intro other member
  have := (logged.labelled other member).bound
  omega

theorem startBlock_logged (logged : context.Logged) :
    (context.startBlock block decl types).Logged := by
  refine (logged.newBlock "blk_exit").openExit ?_ ?_ ?_ (phiInsts_isPhi types 0)
    (labels_apart logged (Nat.le_refl _)) (exitLabel_phis _ _ _ _ _)
  · simp [exitLabel]
  · simp [exitLabel, Function.body_eq_nil]
  · exact edgesInto_fresh fun edge member => (logged.traced.bounded edge member).2

theorem startThen_logged (here : context.At block) (logged : context.Logged) (value : Value)
    (rest : List Value) : (context.startThen block value rest decl types).Logged := by
  have blocks : (context.compareZero block value rest).function.blocks.length =
      context.function.blocks.length := compareZero_blocks context block value rest
  have bound := here.bound
  have created := (((compareZero_logged here logged value rest).newBlock "ifblk").newBlock
    "elseblk").newBlock "ifblk_exit"
  have branched : Block.Logged (context.branchToArms block value rest).function
      (context.edges ++ ⟨.arm, block, context.function.blocks.length, []⟩ ::
        [⟨.arm, block, context.function.blocks.length + 1, []⟩]) context.blockStack := by
    refine created.arms ?_ (by rfl) (by simp) (by rfl) ?_ ?_
    · simp [blocks]
      omega
    · simp [Inst.targets, blocks]
      omega
    · simp [Function.body_eq_nil, blocks]
  rw [List.append_cons] at branched
  have apart : context.function.blocks.length + 2 ≠ block := by omega
  refine Block.Logged.openExit branched ?_ ?_ ?_ (phiInsts_isPhi types 0)
    (labels_apart logged (Nat.le_add_right _ 2)) (exitLabel_phis _ _ _ _ _)
  · simp [exitLabel]
  · simp [exitLabel, branchToArms, Function.body_append_of_ne apart, Function.body_eq_nil,
      compareZero]
  · have old : edgesInto context.edges (context.function.blocks.length + 2) = [] :=
      edgesInto_fresh fun edge member => Nat.lt_add_right 2 (logged.traced.bounded edge member).2
    simp only [exitLabel, edgesInto_append, old]
    simp [edgesInto]

theorem startLoop_logged (here : context.At block) (logged : context.Logged)
    (all : Convert decl.params.reverse types) (enough : decl.params.length ≤ context.stack.length) :
    (context.startLoop block decl types).Logged := by
  have sized := loopLabel_sized (context.branchToLoop block decl) context.function.blocks.length all
  have opened := logged.openLoop
    ((context.branchToLoop block decl).loopLabel context.function.blocks.length decl types)
    here.bound "loop_entry" rfl (by rw [sized]; exact enough) (paramInsts_isPhi types) ?_
  · rw [sized, ← loopEntries_eq] at opened
    exact opened
  · intro id index type
    rw [loopLabel_phis]
    simp [branchToLoop]

/-- The end of a body that can be reached is an edge to the exit block. -/
theorem flowInto_logged {inner : BlockContext I.Op} {label : BreakoutTarget} {arity : Nat}
    (placed : inner.Placed) (logged : inner.Logged) (labelled : LabelPhis inner.function label)
    (sized : label.phis.length = arity) (closable : Closable inner label.pos arity) :
    (inner.flowInto label.target label.phis).Logged := by
  rcases placed with nowhere | ⟨block, here⟩
  · have unplaced : inner.getInsertBlock = none := by simp [getInsertBlock, nowhere]
    rw [flowInto, unplaced]
    exact logged
  · have exact := closable.exact here.reachable
    have positive := closable.positive
    have enough : label.phis.length ≤ inner.stack.length := by omega
    rw [flowInto, here.getInsertBlock]
    exact logged.branch here.bound labelled enough (by rfl) rfl rfl rfl rfl (by simp) (by rfl)
      (by simp) (by simp)

end Blocks

theorem Logged.subset {Op : Type} {function : Function Op} {edges : List Edge}
    {labels labels' : List BreakoutTarget} (logged : Block.Logged function edges labels)
    (fewer : ∀ label ∈ labels', label ∈ labels) : Block.Logged function edges labels' :=
  ⟨logged.traced, logged.recorded, fun label member => logged.labelled label (fewer label member)⟩

theorem leave_logged {inner : BlockContext I.Op} {label : BreakoutTarget} {arity : Nat}
    (lty : LabelType) (placed : inner.Placed) (logged : inner.Logged) (member : label ∈ inner.blockStack)
    (sized : label.phis.length = arity) (closable : Closable inner label.pos arity) :
    (inner.leave lty label).Logged := by
  refine (flowInto_logged placed logged (logged.labelled _ member) sized closable).subset ?_
  intro other inside
  rw [flowInto_blockStack]
  rw [leave, withLabels_blockStack] at inside
  split at inside
  · exact inside
  · exact List.mem_of_mem_tail inside

/-- Every run keeps the graph and the phis in the history. -/
theorem Emits.logged {context final : BlockContext I.Op} {exprs : List (Expr I.Instr)}
    (emits : Emits I context exprs final) (logged : context.Logged) : final.Logged := by
  induction emits with
  | nil => exact logged
  | skipped nowhere => exact logged
  | step here head tail ih => exact ih (head.logged here logged)
  | @block context inner _ block decl _ _ types here all run closable tail ihRun ihTail =>
      have top : inner.blockStack = context.blockLabel decl types :: context.blockStack := run.blockStack
      exact ihTail (leave_logged .block (run.placed (.inr ⟨_, startBlock_at _ _ here⟩))
        (ihRun (startBlock_logged logged)) (top ▸ List.mem_cons_self) (exitLabel_sized _ _ _ all)
        closable)
  | loop here all enough run closable tail ihRun ihTail =>
      have inside := ihRun (startLoop_logged here logged all enough)
      exact ihTail (inside.subset fun label member => List.mem_of_mem_tail member)
  | @if_ context first second _ block value rest decl _ _ _ types here top enough all runTrue
      closableTrue runFalse closableFalse tail ihTrue ihFalse ihTail =>
      have topTrue : first.blockStack = context.ifLabel block value rest decl types ::
        context.blockStack := runTrue.blockStack
      have topFalse : second.blockStack = context.ifLabel block value rest decl types ::
        context.blockStack := runFalse.blockStack.trans (startElse_blockStack runTrue)
      have insideFalse := ihFalse (leave_logged .if_ (runTrue.placed (.inr ⟨_, startThen_at _ _ _ _⟩))
        (ihTrue (startThen_logged here logged value rest)) (topTrue ▸ List.mem_cons_self)
        (exitLabel_sized _ _ _ all) closableTrue)
      exact ihTail (leave_logged .else_ (runFalse.placed (.inr ⟨_, startElse_placed runTrue⟩)) insideFalse
        (topFalse ▸ List.mem_cons_self) (exitLabel_sized _ _ _ all) closableFalse)

end WasmToLlvm.Block
