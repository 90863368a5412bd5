import WasmToLlvm.Library.Dominance
import WasmToLlvm.Llvm.Growth
import WasmToLlvm.Llvm.Numbering

/-!
# Static single assignment

The rule that the definition of a value dominates its uses. While a function is built the
rule is kept for a relation between blocks that only grows, such as the order of a tree.
-/

set_option autoImplicit false

namespace WasmToLlvm.Llvm

open Library

namespace Function

variable {Op : Type}

/-- An edge of the control-flow graph. -/
def Edge (function : Function Op) (source target : Nat) : Prop :=
  target ∈ function.successors source

/-- The entry block is the first one. -/
def Reachable (function : Function Op) (block : Nat) : Prop :=
  ∃ nodes, Walk function.Edge 0 block nodes

def Dominates (function : Function Op) (first second : Nat) : Prop :=
  Library.Dominates function.Edge 0 first second

/-- Edges go forward in an order of the blocks, or back to the entry of a loop, which
dominates their source. -/
def Reducible (function : Function Op) : Prop :=
  ∃ rank : Nat → Nat, ∀ source target, function.Edge source target → rank source < rank target ∨
    (function.blocks[target]?).map BasicBlock.name = some "loop_entry" ∧ function.Dominates target source

/-- The result of an instruction is known at the end of a block: the block of the
instruction is above. -/
def DefinedIn (function : Function Op) (above : Nat → Nat → Prop) (value : Value) (block : Nat) : Prop :=
  ∀ id, value.instId? = some id → ∃ home, id ∈ function.body home ∧ above home block

/-- The result of an instruction is known at a position of a block. -/
def DefinedAt (function : Function Op) (above : Nat → Nat → Prop) (value : Value) (block position : Nat) : Prop :=
  ∀ id, value.instId? = some id → id ∈ (function.body block).take position ∨
    ∃ home, home ≠ block ∧ id ∈ function.body home ∧ above home block

/-- Every operand is known where it is used; an entry of a phi is used at the end of the
block that it is for. -/
structure Uses (function : Function Op) (above : Nat → Nat → Prop) : Prop where
  operands : ∀ block position id inst, (function.body block)[position]? = some id →
    function.insts[id]? = some inst → ∀ value ∈ inst.operands, function.DefinedAt above value block position
  entries : ∀ entry ∈ function.incoming, ∀ source, entry.block = some source →
    function.DefinedIn above entry.value source

/-- In the blocks that can be reached definitions dominate uses. -/
structure SSA (function : Function Op) : Prop where
  operands : ∀ block position id inst, function.Reachable block → (function.body block)[position]? = some id →
    function.insts[id]? = some inst → ∀ value ∈ inst.operands, function.DefinedAt function.Dominates value block position
  entries : ∀ entry ∈ function.incoming, ∀ source, entry.block = some source → function.Reachable source →
    function.DefinedIn function.Dominates entry.value source

section Uses

variable {function larger : Function Op} {above above' : Nat → Nat → Prop} {value : Value} {block position : Nat}

theorem DefinedIn.mono (defined : function.DefinedIn above value block)
    (weaker : ∀ first second, above first second → above' first second) : function.DefinedIn above' value block := by
  intro id is
  obtain ⟨home, inside, higher⟩ := defined id is
  exact ⟨home, inside, weaker _ _ higher⟩

theorem DefinedIn.grows (defined : function.DefinedIn above value block) (grows : function.Grows larger) :
    larger.DefinedIn above value block := by
  intro id is
  obtain ⟨home, inside, higher⟩ := defined id is
  exact ⟨home, grows.member inside, higher⟩

theorem DefinedIn.below {lower : Nat} (defined : function.DefinedIn above value block)
    (trans : ∀ home, above home block → above home lower) : function.DefinedIn above value lower := by
  intro id is
  obtain ⟨home, inside, higher⟩ := defined id is
  exact ⟨home, inside, trans home higher⟩

/-- Constants, arguments and addresses are known everywhere. -/
theorem definedIn_constant (constant : value.instId? = none) : function.DefinedIn above value block := by
  intro id is
  rw [constant] at is
  cases is

theorem definedIn_home {id home : Nat} {type : Ty} (inside : id ∈ function.body home) (higher : above home block) :
    function.DefinedIn above (.inst id type) block := by
  intro other is
  obtain rfl := Option.some.inj is
  exact ⟨home, inside, higher⟩

/-- What is known at the end of a block is known behind its instructions. -/
theorem DefinedIn.at_end (defined : function.DefinedIn above value block) :
    function.DefinedAt above value block (function.body block).length := by
  intro id is
  obtain ⟨home, inside, higher⟩ := defined id is
  by_cases same : home = block
  · subst same
    exact .inl (by rwa [List.take_length])
  · exact .inr ⟨home, same, inside, higher⟩

theorem DefinedAt.mono (defined : function.DefinedAt above value block position)
    (weaker : ∀ first second, above first second → above' first second) :
    function.DefinedAt above' value block position := by
  intro id is
  rcases defined id is with earlier | ⟨home, different, inside, higher⟩
  · exact .inl earlier
  · exact .inr ⟨home, different, inside, weaker _ _ higher⟩

theorem DefinedAt.grows (defined : function.DefinedAt above value block position) (grows : function.Grows larger) :
    larger.DefinedAt above value block position := by
  intro id is
  rcases defined id is with earlier | ⟨home, different, inside, higher⟩
  · obtain ⟨more, same⟩ := grows.bodies block
    refine .inl ?_
    rw [← same, List.take_append]
    exact List.mem_append_left _ earlier
  · exact .inr ⟨home, different, grows.member inside, higher⟩

theorem Uses.mono (uses : function.Uses above) (weaker : ∀ first second, above first second → above' first second) :
    function.Uses above' where
  operands := fun block position id inst there found value member =>
    (uses.operands block position id inst there found value member).mono weaker
  entries := fun entry member source from_ => (uses.entries entry member source from_).mono weaker

theorem Uses.ssa (uses : function.Uses above) (dominates : ∀ first second, above first second →
    function.Dominates first second) : function.SSA where
  operands := fun block position id inst _ => (uses.mono dominates).operands block position id inst
  entries := fun entry member source from_ _ => (uses.mono dominates).entries entry member source from_

/-! ## Building -/

theorem uses_empty : (empty : Function Op).Uses above where
  operands := fun _ _ _ _ there => nomatch there
  entries := fun _ member => nomatch member

theorem Uses.newBlock (uses : function.Uses above) (name : String) : (function.newBlock name).Uses above where
  operands := by
    intro block position id inst there found value member
    rw [body_newBlock] at there
    exact (uses.operands block position id inst there found value member).grows ((Grows.refl _).newBlock name)
  entries := fun entry member source from_ =>
    (uses.entries entry member source from_).grows ((Grows.refl _).newBlock name)

theorem Uses.addCase (uses : function.Uses above) (switch number target : Nat) :
    (function.addCase switch number target).Uses above :=
  ⟨uses.operands, uses.entries⟩

theorem Uses.addIncomings (uses : function.Uses above) {entries : List (Nat × Value)} {from? : Option Nat}
    (defined : ∀ entry ∈ entries, ∀ source, from? = some source → function.DefinedIn above entry.2 source) :
    (function.addIncomings entries from?).Uses above where
  operands := uses.operands
  entries := by
    intro entry member source from_
    rcases List.mem_append.mp member with old | new
    · exact uses.entries entry old source from_
    · obtain ⟨pair, inside, rfl⟩ := List.mem_map.mp new
      exact defined pair inside source from_

/-- The instructions of blocks are objects of the function. -/
def Inside (function : Function Op) : Prop :=
  ∀ block id, id ∈ function.body block → id < function.insts.length

theorem Inside.append (inside : function.Inside) (target : Nat) (inst : Inst Op) :
    (function.append target inst).Inside := by
  intro block id member
  rw [insts_append, List.length_append, List.length_singleton]
  rcases mem_body_append member with member | ⟨rfl, _⟩
  · exact Nat.lt_succ_of_lt (inside block id member)
  · exact Nat.lt_succ_self _

theorem Inside.newBlock (inside : function.Inside) (name : String) : (function.newBlock name).Inside := by
  intro block id member
  rw [body_newBlock] at member
  exact inside block id member

/-- An instruction whose operands are known at the end of the block. -/
theorem Uses.append (uses : function.Uses above) (inside : function.Inside) (block : Nat) (inst : Inst Op)
    (defined : ∀ value ∈ inst.operands, function.DefinedIn above value block) :
    (function.append block inst).Uses above where
  operands := by
    have grows : function.Grows (function.append block inst) := (Grows.refl _).append block inst
    intro other position id found there object value member
    rcases Nat.lt_or_ge position (function.body other).length with old | new
    · have earlier : (function.body other)[position]? = some id := by
        obtain ⟨more, same⟩ := grows.bodies other
        rwa [← same, List.getElem?_append_left old] at there
      have known := inside other id (List.mem_of_getElem? earlier)
      rw [insts_append, List.getElem?_append_left known] at object
      exact (uses.operands other position id found earlier object value member).grows grows
    · rw [body_append] at there
      split at there
      · rename_i here
        obtain ⟨rfl, _⟩ := here
        rw [List.getElem?_append_right new] at there
        have last : position - (function.body other).length = 0 := by
          have inside := (List.getElem?_eq_some_iff.mp there).1
          rw [List.length_singleton] at inside
          omega
        obtain rfl : position = (function.body other).length := by omega
        rw [last] at there
        obtain rfl := Option.some.inj there
        rw [insts_append, List.getElem?_concat_length] at object
        obtain rfl := Option.some.inj object
        exact (defined value member).at_end.grows grows
      · rw [List.getElem?_eq_none new] at there
        cases there
  entries := fun entry member source from_ =>
    (uses.entries entry member source from_).grows ((Grows.refl _).append block inst)

/-- Instructions at the end of a block that use what is known there and each other's
results. -/
theorem Uses.appendAll (uses : function.Uses above) (inside : function.Inside)
    (bound : block < function.blocks.length) (refl : above block block) {insts : List (Inst Op)}
    (defined : ∀ position inst, insts[position]? = some inst → ∀ value ∈ inst.operands,
      function.DefinedIn above value block ∨
        ∃ earlier < position, value.instId? = some (function.insts.length + earlier)) :
    (function.appendAll block insts).Uses above := by
  induction insts generalizing function with
  | nil => exact uses
  | cons inst insts ih =>
      have grows : function.Grows (function.append block inst) := (Grows.refl _).append block inst
      have first : ∀ value ∈ inst.operands, function.DefinedIn above value block := by
        intro value member
        rcases defined 0 inst rfl value member with known | ⟨_, before, _⟩
        · exact known
        · exact absurd before (Nat.not_lt_zero _)
      rw [appendAll_cons]
      refine ih (uses.append inside block inst first) (inside.append block inst) (by simpa using bound) ?_
      intro position other found value member
      rcases defined (position + 1) other found value member with known | ⟨earlier, before, is⟩
      · exact .inl (known.grows grows)
      · rcases earlier with _ | earlier
        · refine .inl fun id same => ⟨block, ?_, refl⟩
          obtain rfl := Option.some.inj (same.symm.trans is)
          rw [body_append_self bound]
          exact List.mem_append_right _ (List.mem_singleton_self _)
        · refine .inr ⟨earlier, Nat.lt_of_succ_lt_succ before, ?_⟩
          rw [is, insts_append, List.length_append, List.length_singleton, Nat.add_assoc, Nat.add_comm 1]

/-- Instructions without operands. -/
theorem Uses.appendPhis (uses : function.Uses above) (inside : function.Inside) (block : Nat) {insts : List (Inst Op)}
    (phis : ∀ inst ∈ insts, inst.isPhi) : (function.appendAll block insts).Uses above := by
  induction insts generalizing function with
  | nil => exact uses
  | cons inst insts ih =>
      rw [appendAll_cons]
      refine ih (uses.append inside block inst fun value member => ?_) (inside.append block inst)
        fun other among => phis other (List.mem_cons_of_mem _ among)
      have isPhi := phis inst List.mem_cons_self
      cases inst with
      | phi _ _ => cases member
      | _ => cases isPhi

end Uses

/-! ## Names of blocks -/

/-- The names of the blocks, in order. -/
def names (function : Function Op) : List String :=
  function.blocks.map BasicBlock.name

section Names

variable (function : Function Op) (block : Nat)

@[simp] theorem names_length : function.names.length = function.blocks.length := List.length_map _

@[simp] theorem names_empty : (empty : Function Op).names = [] := rfl

@[simp] theorem names_newBlock (name : String) : (function.newBlock name).names = function.names ++ [name] := by
  simp [names, newBlock]

@[simp] theorem names_append (inst : Inst Op) : (function.append block inst).names = function.names := by
  refine List.ext_getElem? fun index => ?_
  simp only [names, append, insertAt, List.getElem?_map, List.getElem?_modify]
  cases function.blocks[index]? with
  | none => rfl
  | some basicBlock =>
      by_cases same : block = index
      · simp [same]
      · simp [same]

@[simp] theorem names_appendAll (insts : List (Inst Op)) : (function.appendAll block insts).names = function.names := by
  induction insts generalizing function with
  | nil => rfl
  | cons inst insts ih => rw [appendAll_cons, ih, names_append]

@[simp] theorem names_addIncomings (entries : List (Nat × Value)) (from? : Option Nat) :
    (function.addIncomings entries from?).names = function.names := rfl

@[simp] theorem names_addCase (switch number target : Nat) :
    (function.addCase switch number target).names = function.names := rfl

end Names

end Function

end WasmToLlvm.Llvm
