import WasmToLlvm.Llvm.Building

/-!
# Well-formed control-flow graphs

The structural rules of LLVM for the blocks of a function, and the shapes that a
block goes through while the function is built: first its phis, then straight
code, and last a terminator.
-/

set_option autoImplicit false

namespace WasmToLlvm.Llvm

namespace Function

variable {Op : Type}

/-- All instructions of a list have a property. -/
def All (function : Function Op) (property : Inst Op → Prop) (ids : List Nat) : Prop :=
  ∀ id ∈ ids, ∃ inst, function.insts[id]? = some inst ∧ property inst

/-- Every block ends in its only terminator and starts with its phis; the entry
block, which is the first one, has no predecessor, and all branches stay inside
the function. -/
structure WellFormed (function : Function Op) : Prop where
  terminated : ∀ block < function.blocks.length, ∃ front last inst,
    function.body block = front ++ [last] ∧ function.insts[last]? = some inst ∧
      inst.isTerminator ∧ function.All (fun inst => inst.isTerminator = false) front
  phisFirst : ∀ block < function.blocks.length, ∃ phis others,
    function.body block = phis ++ others ∧ function.All (fun inst => inst.isPhi) phis ∧
      function.All (fun inst => inst.isPhi = false) others
  entry : function.predecessors 0 = []
  targets : ∀ block < function.blocks.length, ∀ target ∈ function.successors block,
    target < function.blocks.length

/-! ## Lists of instructions -/

section All

variable {function function' : Function Op} {property property' : Inst Op → Prop}
  {ids ids' : List Nat}

theorem All.nil : function.All property [] := by
  intro id member
  cases member

theorem All.append (first : function.All property ids) (second : function.All property ids') :
    function.All property (ids ++ ids') := by
  intro id member
  rcases List.mem_append.mp member with member | member
  · exact first id member
  · exact second id member

theorem All.imp (all : function.All property ids)
    (weaker : ∀ inst, property inst → property' inst) : function.All property' ids := by
  intro id member
  obtain ⟨inst, found, holds⟩ := all id member
  exact ⟨inst, found, weaker inst holds⟩

/-- Instruction objects stay what they are. -/
theorem All.mono (all : function.All property ids) (prefixed : function.insts <+: function'.insts) :
    function'.All property ids := by
  intro id member
  obtain ⟨inst, found, holds⟩ := all id member
  obtain ⟨more, extended⟩ := prefixed
  refine ⟨inst, ?_, holds⟩
  rw [← extended, List.getElem?_append_left (List.getElem?_eq_some_iff.mp found).1, found]

/-- New instruction objects are found under the next numbers. -/
theorem All.range' {insts : List (Inst Op)} (extended : function'.insts = function.insts ++ insts)
    (holds : ∀ inst ∈ insts, property inst) :
    function'.All property (List.range' function.insts.length insts.length) := by
  intro id member
  obtain ⟨low, high⟩ := List.mem_range'_1.mp member
  have inside : id - function.insts.length < insts.length := by omega
  refine ⟨insts[id - function.insts.length], ?_, holds _ (List.getElem_mem inside)⟩
  rw [extended, List.getElem?_append_right low, List.getElem?_eq_getElem inside]

end All

/-! ## Stages of a block -/

/-- The body of the block that instructions are inserted into. -/
structure Open (function : Function Op) (ids : List Nat) : Prop where
  split : ∃ phis plains, ids = phis ++ plains ∧ function.All (fun inst => inst.isPhi) phis ∧
    function.All (fun inst => inst.isPlain) plains

/-- The body of a finished block. The entry block is not a target. -/
structure Closed (function : Function Op) (ids : List Nat) : Prop where
  split : ∃ front last inst, ids = front ++ [last] ∧ function.Open front ∧
    function.insts[last]? = some inst ∧ inst.isTerminator ∧
    ∀ target ∈ inst.targets, 0 < target ∧ target < function.blocks.length

/-- The blocks of a function under construction: `pending` blocks only have phis,
instructions are inserted into `current`, and the other blocks are finished. -/
structure Staged (function : Function Op) (pending : List Nat) (current : Option Nat) : Prop where
  away : ∀ block, current = some block → block ∉ pending ∧ block < function.blocks.length
  unique : pending.Nodup
  pendings : ∀ block ∈ pending, block < function.blocks.length ∧
    function.All (fun inst => inst.isPhi) (function.body block)
  opened : ∀ block, current = some block → function.Open (function.body block)
  closed : ∀ block < function.blocks.length, block ∉ pending → current ≠ some block →
    function.Closed (function.body block)
  cases : ∀ case ∈ function.cases, 0 < case.target ∧ case.target < function.blocks.length

section Staged

variable {function function' : Function Op} {ids : List Nat} {pending : List Nat}
  {current : Option Nat} {block : Nat}

theorem Open.mono (opened : function.Open ids) (prefixed : function.insts <+: function'.insts) :
    function'.Open ids := by
  obtain ⟨phis, plains, same, phisOk, plainsOk⟩ := opened.split
  exact ⟨phis, plains, same, phisOk.mono prefixed, plainsOk.mono prefixed⟩

theorem Closed.mono (closed : function.Closed ids) (prefixed : function.insts <+: function'.insts)
    (grown : function.blocks.length ≤ function'.blocks.length) : function'.Closed ids := by
  obtain ⟨front, last, inst, same, frontOk, found, terminator, targets⟩ := closed.split
  have bound := (List.getElem?_eq_some_iff.mp found).1
  obtain ⟨more, extended⟩ := prefixed
  refine ⟨front, last, inst, same, frontOk.mono ⟨more, extended⟩, ?_, terminator, ?_⟩
  · rw [← extended, List.getElem?_append_left bound, found]
  · intro target member
    obtain ⟨positive, inside⟩ := targets target member
    exact ⟨positive, Nat.lt_of_lt_of_le inside grown⟩

theorem Staged.newBlock (staged : function.Staged pending current) (name : String) :
    (function.newBlock name).Staged (function.blocks.length :: pending) current where
  away := by
    intro block here
    obtain ⟨apart, bound⟩ := staged.away block here
    refine ⟨?_, by simpa using Nat.lt_succ_of_lt bound⟩
    intro member
    rcases List.mem_cons.mp member with rfl | member
    · exact Nat.lt_irrefl _ bound
    · exact apart member
  unique := by
    refine List.nodup_cons.mpr ⟨fun member => ?_, staged.unique⟩
    exact Nat.lt_irrefl _ (staged.pendings _ member).1
  pendings := by
    intro block member
    rcases List.mem_cons.mp member with rfl | member
    · simp [body_eq_nil, All.nil]
    · obtain ⟨bound, phis⟩ := staged.pendings block member
      refine ⟨by simpa using Nat.lt_succ_of_lt bound, ?_⟩
      rw [body_newBlock]
      exact phis.mono (List.prefix_refl _)
  opened := by
    intro block here
    rw [body_newBlock]
    exact (staged.opened block here).mono (List.prefix_refl _)
  closed := by
    intro block bound apart away
    have old : block < function.blocks.length := by
      simp only [blocks_length_newBlock] at bound
      have : block ≠ function.blocks.length := fun same => apart (by simp [same])
      omega
    have finished := staged.closed block old (fun member => apart (List.mem_cons_of_mem _ member)) away
    rw [body_newBlock]
    exact finished.mono (List.prefix_refl _) (by simp)
  cases := by
    intro case member
    obtain ⟨positive, inside⟩ := staged.cases case member
    exact ⟨positive, by simpa using Nat.lt_succ_of_lt inside⟩

/-- Instructions at the end of one block leave the other blocks at their stages. -/
theorem Staged.appendAll {current' : Option Nat} (staged : function.Staged pending current)
    (insts : List (Inst Op)) (still : ∀ other, current' = some other → current = some other)
    (pendingOk : block ∈ pending → ∀ inst ∈ insts, inst.isPhi)
    (openOk : current' = some block →
      (function.appendAll block insts).Open ((function.appendAll block insts).body block))
    (closedOk : block ∉ pending → current' ≠ some block → block < function.blocks.length →
      (function.appendAll block insts).Closed ((function.appendAll block insts).body block))
    (only : ∀ other, current = some other → current' = some other ∨ other = block) :
    (function.appendAll block insts).Staged pending current' where
  away := by
    intro other here
    simpa using staged.away other (still other here)
  unique := staged.unique
  pendings := by
    intro other member
    obtain ⟨bound, phis⟩ := staged.pendings other member
    refine ⟨by simpa using bound, ?_⟩
    by_cases same : other = block
    · subst same
      rw [body_appendAll_self bound]
      exact (phis.mono (by simp)).append (All.range' (by simp) (pendingOk member))
    · rw [body_appendAll_of_ne same]
      exact phis.mono (by simp)
  opened := by
    intro other here
    by_cases same : other = block
    · subst same
      exact openOk here
    · rw [body_appendAll_of_ne same]
      exact (staged.opened other (still other here)).mono (by simp)
  closed := by
    intro other bound apart away
    rw [blocks_length_appendAll] at bound
    by_cases same : other = block
    · subst same
      exact closedOk apart away bound
    · rw [body_appendAll_of_ne same]
      refine (staged.closed other bound apart fun here => ?_).mono (by simp) (by simp)
      rcases only other here with here' | here'
      · exact away here'
      · exact same here'
  cases := by simpa using staged.cases

/-- Straight code in the current block. -/
theorem Staged.appendPlains (staged : function.Staged pending (some block))
    {insts : List (Inst Op)} (plain : ∀ inst ∈ insts, inst.isPlain) :
    (function.appendAll block insts).Staged pending (some block) := by
  obtain ⟨apart, bound⟩ := staged.away block rfl
  refine staged.appendAll insts (fun _ here => here) (fun member => absurd member apart) ?_
    (fun _ away => absurd rfl away) (fun _ here => .inl here)
  intro _
  obtain ⟨phis, plains, same, phisOk, plainsOk⟩ := (staged.opened block rfl).split
  refine ⟨phis, plains ++ List.range' function.insts.length insts.length, ?_,
    phisOk.mono (by simp), (plainsOk.mono (by simp)).append (All.range' (by simp) plain)⟩
  rw [body_appendAll_self bound, same, List.append_assoc]

/-- Phis in a pending block. -/
theorem Staged.appendPhis (staged : function.Staged pending current) (member : block ∈ pending)
    {insts : List (Inst Op)} (phis : ∀ inst ∈ insts, inst.isPhi) :
    (function.appendAll block insts).Staged pending current :=
  staged.appendAll insts (fun _ here => here) (fun _ => phis)
    (fun here => absurd member (staged.away block here).1) (fun apart => absurd member apart)
    (fun _ here => .inl here)

/-- A terminator finishes the current block. -/
theorem Staged.close (staged : function.Staged pending (some block)) {inst : Inst Op}
    (terminator : inst.isTerminator)
    (targets : ∀ target ∈ inst.targets, 0 < target ∧ target < function.blocks.length) :
    (function.append block inst).Staged pending none := by
  obtain ⟨apart, bound⟩ := staged.away block rfl
  refine staged.appendAll [inst] (fun _ here => nomatch here) (fun member => absurd member apart)
    (fun here => nomatch here) ?_ (fun _ here => .inr (Option.some.inj here).symm)
  intro _ _ _
  refine ⟨function.body block, function.insts.length, inst, ?_,
    (staged.opened block rfl).mono (by simp), ?_, terminator, by simpa using targets⟩
  · simp [bound]
  · simp

/-- A pending block becomes the current one. -/
theorem Staged.enter (staged : function.Staged (block :: pending) none) :
    function.Staged pending (some block) where
  away := by
    intro other here
    obtain rfl := Option.some.inj here
    exact ⟨(List.nodup_cons.mp staged.unique).1, (staged.pendings block (by simp)).1⟩
  unique := (List.nodup_cons.mp staged.unique).2
  pendings := fun other member => staged.pendings other (List.mem_cons_of_mem _ member)
  opened := by
    intro other here
    obtain rfl := Option.some.inj here
    exact ⟨_, [], (List.append_nil _).symm, (staged.pendings block (by simp)).2, All.nil⟩
  closed := by
    intro other bound apart away
    refine staged.closed other bound (fun member => ?_) (fun here => nomatch here)
    rcases List.mem_cons.mp member with rfl | member
    · exact away rfl
    · exact apart member
  cases := staged.cases

theorem Staged.perm {pending' : List Nat} (staged : function.Staged pending current)
    (same : pending.Perm pending') : function.Staged pending' current where
  away := fun block here =>
    ⟨fun member => (staged.away block here).1 (same.mem_iff.mpr member), (staged.away block here).2⟩
  unique := same.nodup_iff.mp staged.unique
  pendings := fun block member => staged.pendings block (same.mem_iff.mpr member)
  opened := staged.opened
  closed := fun block bound apart away =>
    staged.closed block bound (fun member => apart (same.mem_iff.mp member)) away
  cases := staged.cases

theorem Staged.addCase (staged : function.Staged pending current) (switch value : Nat)
    {target : Nat} (inside : 0 < target ∧ target < function.blocks.length) :
    (function.addCase switch value target).Staged pending current where
  away := staged.away
  unique := staged.unique
  pendings := staged.pendings
  opened := fun block here => (staged.opened block here).mono (List.prefix_refl _)
  closed := fun block bound apart away =>
    (staged.closed block bound apart away).mono (List.prefix_refl _) (Nat.le_refl _)
  cases := by
    intro case member
    rcases List.mem_append.mp member with member | member
    · exact staged.cases case member
    · obtain rfl := List.mem_singleton.mp member
      exact inside

theorem Staged.addIncomings (staged : function.Staged pending current)
    (entries : List (Nat × Value)) (from? : Option Nat) :
    (function.addIncomings entries from?).Staged pending current where
  away := staged.away
  unique := staged.unique
  pendings := staged.pendings
  opened := fun block here => (staged.opened block here).mono (List.prefix_refl _)
  closed := fun block bound apart away =>
    (staged.closed block bound apart away).mono (List.prefix_refl _) (Nat.le_refl _)
  cases := staged.cases

theorem staged_empty : (empty : Function Op).Staged [] none where
  away := fun _ here => nomatch here
  unique := List.nodup_nil
  pendings := fun _ member => nomatch member
  opened := fun _ here => nomatch here
  closed := fun _ bound => nomatch bound
  cases := fun _ member => nomatch member

theorem mem_targets {id target : Nat} (member : target ∈ function.targets id) :
    ∃ inst, function.insts[id]? = some inst ∧
      (target ∈ inst.targets ∨ ∃ case ∈ function.cases, case.target = target) := by
  rw [Function.targets] at member
  cases found : function.insts[id]? with
  | none =>
      rw [found] at member
      cases member
  | some inst =>
      rw [found] at member
      refine ⟨inst, rfl, ?_⟩
      cases inst with
      | switch condition default =>
          rcases List.mem_cons.mp member with rfl | member
          · exact .inl (List.mem_singleton_self _)
          · obtain ⟨⟨value, goal⟩, inCases, rfl⟩ := List.mem_map.mp member
            obtain ⟨case, kept, same⟩ := List.mem_map.mp inCases
            exact .inr ⟨case, (List.mem_filter.mp kept).1, (Prod.mk.inj same).2⟩
      | br => exact .inl member
      | condBr => exact .inl member
      | _ => cases member

theorem Staged.successors (staged : function.Staged [] none) {target : Nat}
    (bound : block < function.blocks.length) (member : target ∈ function.successors block) :
    0 < target ∧ target < function.blocks.length := by
  obtain ⟨front, last, inst, same, opened, found, terminator, targets⟩ :=
    (staged.closed block bound (by simp) (by simp)).split
  obtain ⟨phis, plains, rfl, phisOk, plainsOk⟩ := opened.split
  obtain ⟨id, member, reached⟩ := List.mem_flatMap.mp member
  obtain ⟨inst', found', own | ⟨case, inCases, rfl⟩⟩ := mem_targets reached
  · have noTargets : ∀ {ids : List Nat} {property : Inst Op → Prop}, function.All property ids →
        (∀ inst, property inst → inst.targets = []) → id ∉ ids := by
      intro ids property all none member
      obtain ⟨other, foundOther, holds⟩ := all id member
      obtain rfl := Option.some.inj (foundOther.symm.trans found')
      rw [none _ holds] at own
      cases own
    rw [same, List.mem_append, List.mem_append, List.mem_singleton] at member
    rcases member with (member | member) | rfl
    · refine absurd member (noTargets phisOk fun inst phi => ?_)
      cases inst <;> first | rfl | cases phi
    · refine absurd member (noTargets plainsOk fun inst plain => ?_)
      cases inst <;> first | rfl | cases plain
    · obtain rfl := Option.some.inj (found.symm.trans found')
      exact targets target own
  · exact staged.cases case inCases

theorem Staged.wellFormed (staged : function.Staged [] none) : function.WellFormed where
  terminated := by
    intro block bound
    obtain ⟨front, last, inst, same, opened, found, terminator, _⟩ :=
      (staged.closed block bound (by simp) (by simp)).split
    obtain ⟨phis, plains, rfl, phisOk, plainsOk⟩ := opened.split
    refine ⟨_, last, inst, same, found, terminator, .append (phisOk.imp ?_) (plainsOk.imp ?_)⟩
    · intro inst phi
      cases inst <;> first | rfl | cases phi
    · intro inst plain
      cases inst <;> first | rfl | cases plain
  phisFirst := by
    intro block bound
    obtain ⟨front, last, inst, same, opened, found, terminator, _⟩ :=
      (staged.closed block bound (by simp) (by simp)).split
    obtain ⟨phis, plains, rfl, phisOk, plainsOk⟩ := opened.split
    refine ⟨phis, plains ++ [last], by rw [same, List.append_assoc], phisOk,
      .append (plainsOk.imp ?_) ?_⟩
    · intro inst plain
      cases inst <;> first | rfl | cases plain
    · intro id member
      obtain rfl := List.mem_singleton.mp member
      refine ⟨inst, found, ?_⟩
      cases inst <;> first | rfl | cases terminator
  entry := by
    refine List.flatMap_eq_nil_iff.mpr fun source inRange => ?_
    rw [List.map_eq_nil_iff, List.filter_eq_nil_iff]
    intro target member
    have positive := (staged.successors (List.mem_range.mp inRange) member).1
    simp only [beq_iff_eq]
    omega
  targets := fun block bound target member => (staged.successors bound member).2

end Staged

end Function

end WasmToLlvm.Llvm
