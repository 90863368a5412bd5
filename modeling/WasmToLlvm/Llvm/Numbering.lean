import WasmToLlvm.Llvm.Building

/-!
# Numbering

Every instruction number stands in one place of one block. What an instruction
object says about edges and phis is then settled when it is appended.
-/

set_option autoImplicit false

namespace WasmToLlvm.Llvm

namespace Function

variable {Op : Type}

structure Numbered (function : Function Op) : Prop where
  bodies : ∀ block id, id ∈ function.body block → id < function.insts.length
  once : ∀ block block' id, id ∈ function.body block → id ∈ function.body block' → block = block'
  nodup : ∀ block, (function.body block).Nodup
  incoming : ∀ entry ∈ function.incoming, entry.phi < function.insts.length
  cases : ∀ case ∈ function.cases, case.switch < function.insts.length

section Numbered

variable {function : Function Op} {block : Nat}

theorem numbered_empty : (empty : Function Op).Numbered where
  bodies := fun _ _ member => nomatch member
  once := fun _ _ _ member => nomatch member
  nodup := fun _ => List.nodup_nil
  incoming := fun _ member => nomatch member
  cases := fun _ member => nomatch member

theorem Numbered.newBlock (numbered : function.Numbered) (name : String) :
    (function.newBlock name).Numbered where
  bodies := by simpa using numbered.bodies
  once := by simpa using numbered.once
  nodup := by simpa using numbered.nodup
  incoming := numbered.incoming
  cases := numbered.cases

theorem mem_body_append {target id : Nat} {inst : Inst Op}
    (member : id ∈ (function.append target inst).body block) :
    id ∈ function.body block ∨ id = function.insts.length ∧ block = target := by
  rw [body_append] at member
  split at member
  · rename_i here
    rcases List.mem_append.mp member with member | member
    · exact .inl member
    · exact .inr ⟨List.mem_singleton.mp member, here.1⟩
  · exact .inl member

theorem Numbered.append (numbered : function.Numbered) (target : Nat) (inst : Inst Op) :
    (function.append target inst).Numbered where
  bodies := by
    intro block id member
    rw [insts_append, List.length_append, List.length_singleton]
    rcases mem_body_append member with member | ⟨rfl, _⟩
    · exact Nat.lt_succ_of_lt (numbered.bodies block id member)
    · exact Nat.lt_succ_self _
  once := by
    intro block block' id member member'
    rcases mem_body_append member with old | ⟨rfl, here⟩
    · rcases mem_body_append member' with old' | ⟨rfl, _⟩
      · exact numbered.once block block' id old old'
      · exact absurd (numbered.bodies block _ old) (Nat.lt_irrefl _)
    · rcases mem_body_append member' with old' | ⟨_, here'⟩
      · exact absurd (numbered.bodies block' _ old') (Nat.lt_irrefl _)
      · exact here.trans here'.symm
  nodup := by
    intro block
    rw [body_append]
    split
    · refine List.nodup_append.mpr ⟨numbered.nodup block, List.nodup_cons.mpr ⟨List.not_mem_nil, List.nodup_nil⟩, ?_⟩
      intro id member id' member' same
      obtain rfl := List.mem_singleton.mp member'
      exact Nat.lt_irrefl _ (same ▸ numbered.bodies block id member)
    · exact numbered.nodup block
  incoming := by
    intro entry member
    rw [insts_append, List.length_append]
    exact Nat.lt_add_right _ (numbered.incoming entry member)
  cases := by
    intro case member
    rw [insts_append, List.length_append]
    exact Nat.lt_add_right _ (numbered.cases case member)

theorem Numbered.appendAll (numbered : function.Numbered) (target : Nat) (insts : List (Inst Op)) :
    (function.appendAll target insts).Numbered := by
  induction insts generalizing function with
  | nil => exact numbered
  | cons inst insts ih => exact ih (numbered.append target inst)

theorem Numbered.addIncomings (numbered : function.Numbered) (entries : List (Nat × Value))
    (from? : Option Nat) (old : ∀ entry ∈ entries, entry.1 < function.insts.length) :
    (function.addIncomings entries from?).Numbered where
  bodies := numbered.bodies
  once := numbered.once
  nodup := numbered.nodup
  incoming := by
    intro entry member
    rcases List.mem_append.mp member with member | member
    · exact numbered.incoming entry member
    · obtain ⟨pair, inEntries, rfl⟩ := List.mem_map.mp member
      exact old pair inEntries
  cases := numbered.cases

theorem Numbered.addCase (numbered : function.Numbered) {switch : Nat} (value target : Nat)
    (old : switch < function.insts.length) : (function.addCase switch value target).Numbered where
  bodies := numbered.bodies
  once := numbered.once
  nodup := numbered.nodup
  incoming := numbered.incoming
  cases := by
    intro case member
    rcases List.mem_append.mp member with member | member
    · exact numbered.cases case member
    · obtain rfl := List.mem_singleton.mp member
      exact old

/-! ## Edges -/

theorem targets_append (target : Nat) (inst : Inst Op) {id : Nat}
    (old : id < function.insts.length) : (function.append target inst).targets id = function.targets id := by
  simp only [targets, insts_append, List.getElem?_append_left old]
  rfl

/-- A switch without an instruction number of its own has no cases. -/
theorem Numbered.casesOf_new (numbered : function.Numbered) :
    function.casesOf function.insts.length = [] := by
  rw [casesOf, List.map_eq_nil_iff, List.filter_eq_nil_iff]
  intro case member
  have old := numbered.cases case member
  simp only [beq_iff_eq]
  omega

theorem Numbered.targets_new (numbered : function.Numbered) (target : Nat) (inst : Inst Op) :
    (function.append target inst).targets function.insts.length = inst.targets := by
  have noCases : (function.append target inst).casesOf function.insts.length = [] :=
    numbered.casesOf_new
  simp only [targets, insts_append, List.getElem?_concat_length]
  cases inst <;> simp [Inst.targets, noCases]

theorem Numbered.successors_append (numbered : function.Numbered) {target : Nat}
    (bound : target < function.blocks.length) (inst : Inst Op) :
    (function.append target inst).successors block =
      function.successors block ++ if block = target then inst.targets else [] := by
  have old : ∀ ids : List Nat, (∀ id ∈ ids, id < function.insts.length) →
      ids.flatMap (function.append target inst).targets = ids.flatMap function.targets := by
    intro ids bounded
    induction ids with
    | nil => rfl
    | cons id ids ih =>
        rw [List.flatMap_cons, List.flatMap_cons, targets_append target inst (bounded id (by simp)),
          ih fun other member => bounded other (List.mem_cons_of_mem _ member)]
  rw [successors, successors, body_append]
  by_cases same : block = target
  · subst same
    rw [if_pos ⟨rfl, bound⟩, if_pos rfl, List.flatMap_append, old _ (numbered.bodies block),
      List.flatMap_singleton, numbered.targets_new]
  · rw [if_neg fun both => same both.1, if_neg same, List.append_nil, old _ (numbered.bodies block)]

theorem Numbered.successors_appendAll (numbered : function.Numbered) {target : Nat}
    (bound : target < function.blocks.length) {insts : List (Inst Op)}
    (none : ∀ inst ∈ insts, inst.targets = []) :
    (function.appendAll target insts).successors block = function.successors block := by
  induction insts generalizing function with
  | nil => rfl
  | cons inst insts ih =>
      rw [appendAll_cons, ih (numbered.append target inst) (by simpa using bound)
        fun other member => none other (List.mem_cons_of_mem _ member),
        numbered.successors_append bound, none inst List.mem_cons_self, ite_self, List.append_nil]

@[simp] theorem successors_newBlock (function : Function Op) (name : String) (block : Nat) :
    (function.newBlock name).successors block = function.successors block := by
  rw [successors, body_newBlock]
  rfl

@[simp] theorem successors_addIncomings (function : Function Op) (entries : List (Nat × Value))
    (from? : Option Nat) (block : Nat) :
    (function.addIncomings entries from?).successors block = function.successors block := rfl

/-- A case of the switch at the end of a block is one more edge from that block. -/
theorem Numbered.successors_addCase (numbered : function.Numbered) {source switch target : Nat}
    {front : List Nat} {condition : Value} {default : Nat}
    (last : function.body source = front ++ [switch])
    (found : function.insts[switch]? = some (.switch condition default)) (value : Nat) :
    (function.addCase switch value target).successors block =
      function.successors block ++ if block = source then [target] else [] := by
  have others : ∀ id, id ≠ switch →
      (function.addCase switch value target).targets id = function.targets id := by
    intro id different
    have sameCases : (function.addCase switch value target).casesOf id = function.casesOf id := by
      simp [casesOf, Function.addCase, different.symm]
    simp only [targets, insts_addCase, sameCases]
  have this : (function.addCase switch value target).targets switch =
      function.targets switch ++ [target] := by
    simp [targets, found, casesOf, Function.addCase]
  have unaffected : ∀ ids : List Nat, switch ∉ ids →
      ids.flatMap (function.addCase switch value target).targets = ids.flatMap function.targets := by
    intro ids absent
    induction ids with
    | nil => rfl
    | cons id ids ih =>
        rw [List.mem_cons, not_or] at absent
        rw [List.flatMap_cons, List.flatMap_cons, others id fun same => absent.1 same.symm,
          ih absent.2]
  rw [successors, successors, body_addCase]
  by_cases same : block = source
  · subst same
    have apart : switch ∉ front := by
      have distinct := numbered.nodup block
      rw [last] at distinct
      intro member
      exact (List.nodup_append.mp distinct).2.2 switch member switch (by simp) rfl
    rw [last, if_pos rfl, List.flatMap_append, List.flatMap_append, unaffected front apart,
      List.flatMap_singleton, List.flatMap_singleton, this, List.append_assoc]
  · have apart : switch ∉ function.body block := by
      intro member
      exact same (numbered.once block source switch member (by rw [last]; simp))
    rw [if_neg same, List.append_nil, unaffected _ apart]

end Numbered

end Function

end WasmToLlvm.Llvm
