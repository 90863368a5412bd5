import WasmToLlvm.Llvm.Function

/-!
# Growing a function

What the builder's operations do to the bodies of blocks and to the instruction
objects. Nothing is ever removed: a function only extends the ones before it.
-/

set_option autoImplicit false

namespace WasmToLlvm.Llvm

namespace Function

variable {Op : Type}

/-- A new instruction at the end of a block. -/
def append (function : Function Op) (block : Nat) (inst : Inst Op) : Function Op :=
  function.insertAt block (function.body block).length inst

def appendAll (function : Function Op) (block : Nat) (insts : List (Inst Op)) : Function Op :=
  insts.foldl (fun function inst => function.append block inst) function

/-- Entries for several phis from one block. -/
def addIncomings (function : Function Op) (entries : List (Nat × Value))
    (block : Option Nat) : Function Op :=
  { function with
    incoming := function.incoming ++ entries.map fun entry => ⟨entry.1, entry.2, block⟩ }

/-! ## Bodies -/

theorem body_eq_nil {function : Function Op} {block : Nat}
    (fresh : function.blocks.length ≤ block) : function.body block = [] := by
  simp [body, List.getElem?_eq_none fresh]

@[simp] theorem body_newBlock (function : Function Op) (name : String) (block : Nat) :
    (function.newBlock name).body block = function.body block := by
  by_cases old : block < function.blocks.length
  · simp [body, newBlock, List.getElem?_append_left old]
  · have fresh : function.blocks.length ≤ block := by omega
    by_cases last : block = function.blocks.length
    · subst last
      simp [body, newBlock]
    · have outside : (function.newBlock name).blocks.length ≤ block := by
        simp only [newBlock, List.length_append, List.length_singleton]
        omega
      rw [body_eq_nil fresh, body_eq_nil outside]

@[simp] theorem body_addIncomings (function : Function Op) (entries : List (Nat × Value))
    (from? : Option Nat) (block : Nat) :
    (function.addIncomings entries from?).body block = function.body block := rfl

@[simp] theorem body_addIncoming (function : Function Op) (phi : Nat) (value : Value)
    (from? : Option Nat) (block : Nat) :
    (function.addIncoming phi value from?).body block = function.body block := rfl

@[simp] theorem body_addCase (function : Function Op) (switch : Nat) (value : Nat)
    (target block : Nat) :
    (function.addCase switch value target).body block = function.body block := rfl

theorem body_insertAt (function : Function Op) (target block : Nat) (position : Nat)
    (inst : Inst Op) :
    (function.insertAt target position inst).body block =
      if block = target ∧ target < function.blocks.length then
        (function.body block).insertIdx position function.insts.length
      else function.body block := by
  simp only [body, insertAt, List.getElem?_modify]
  by_cases same : target = block
  · subst same
    by_cases old : target < function.blocks.length
    · simp [old]
    · simp [old]
  · have different : ¬ block = target := fun equal => same equal.symm
    cases function.blocks[block]? <;> simp [same, different]

theorem body_append (function : Function Op) (target block : Nat) (inst : Inst Op) :
    (function.append target inst).body block =
      if block = target ∧ target < function.blocks.length then
        function.body block ++ [function.insts.length]
      else function.body block := by
  rw [append, body_insertAt]
  by_cases here : block = target ∧ target < function.blocks.length
  · obtain ⟨rfl, _⟩ := here
    simp [*]
  · simp [here]

@[simp] theorem body_append_self {function : Function Op} {block : Nat} {inst : Inst Op}
    (old : block < function.blocks.length) :
    (function.append block inst).body block = function.body block ++ [function.insts.length] := by
  simp [body_append, old]

@[simp] theorem body_append_of_ne {function : Function Op} {target block : Nat}
    {inst : Inst Op} (different : block ≠ target) :
    (function.append target inst).body block = function.body block := by
  simp [body_append, different]

/-! ## Sizes and objects -/

@[simp] theorem blocks_length_newBlock (function : Function Op) (name : String) :
    (function.newBlock name).blocks.length = function.blocks.length + 1 := by
  simp [newBlock]

@[simp] theorem blocks_length_insertAt (function : Function Op) (block : Nat)
    (position : Nat) (inst : Inst Op) :
    (function.insertAt block position inst).blocks.length = function.blocks.length := by
  simp [insertAt]

@[simp] theorem blocks_length_append (function : Function Op) (block : Nat)
    (inst : Inst Op) : (function.append block inst).blocks.length = function.blocks.length := by
  simp [append]

@[simp] theorem insts_newBlock (function : Function Op) (name : String) :
    (function.newBlock name).insts = function.insts := rfl

@[simp] theorem insts_insertAt (function : Function Op) (block : Nat)
    (position : Nat) (inst : Inst Op) :
    (function.insertAt block position inst).insts = function.insts ++ [inst] := rfl

@[simp] theorem insts_append (function : Function Op) (block : Nat) (inst : Inst Op) :
    (function.append block inst).insts = function.insts ++ [inst] := rfl

@[simp] theorem insts_addIncomings (function : Function Op) (entries : List (Nat × Value))
    (from? : Option Nat) : (function.addIncomings entries from?).insts = function.insts := rfl

@[simp] theorem insts_addIncoming (function : Function Op) (phi : Nat) (value : Value)
    (from? : Option Nat) : (function.addIncoming phi value from?).insts = function.insts := rfl

@[simp] theorem blocks_addIncoming (function : Function Op) (phi : Nat) (value : Value)
    (from? : Option Nat) : (function.addIncoming phi value from?).blocks = function.blocks := rfl

@[simp] theorem insts_addCase (function : Function Op) (switch value target : Nat) :
    (function.addCase switch value target).insts = function.insts := rfl

@[simp] theorem blocks_addCase (function : Function Op) (switch value target : Nat) :
    (function.addCase switch value target).blocks = function.blocks := rfl

@[simp] theorem incoming_addCase (function : Function Op) (switch value target : Nat) :
    (function.addCase switch value target).incoming = function.incoming := rfl

@[simp] theorem blocks_addIncomings (function : Function Op) (entries : List (Nat × Value))
    (from? : Option Nat) :
    (function.addIncomings entries from?).blocks = function.blocks := rfl

@[simp] theorem incoming_newBlock (function : Function Op) (name : String) :
    (function.newBlock name).incoming = function.incoming := rfl

@[simp] theorem incoming_append (function : Function Op) (block : Nat) (inst : Inst Op) :
    (function.append block inst).incoming = function.incoming := rfl

theorem casesOf_congr {function other : Function Op} (same : other.cases = function.cases)
    (switch : Nat) : other.casesOf switch = function.casesOf switch := by
  rw [casesOf, casesOf, same]

@[simp] theorem cases_newBlock (function : Function Op) (name : String) :
    (function.newBlock name).cases = function.cases := rfl

@[simp] theorem cases_append (function : Function Op) (block : Nat) (inst : Inst Op) :
    (function.append block inst).cases = function.cases := rfl

@[simp] theorem cases_addIncomings (function : Function Op) (entries : List (Nat × Value))
    (from? : Option Nat) : (function.addIncomings entries from?).cases = function.cases := rfl

@[simp] theorem addIncomings_nil (function : Function Op) (from? : Option Nat) :
    function.addIncomings [] from? = function := by
  simp [addIncomings]

theorem addIncoming_addIncomings (function : Function Op) (phi : Nat) (value : Value)
    (entries : List (Nat × Value)) (from? : Option Nat) :
    (function.addIncoming phi value from?).addIncomings entries from? =
      function.addIncomings ((phi, value) :: entries) from? := by
  simp [addIncoming, addIncomings]

/-! ## Several instructions -/

@[simp] theorem appendAll_nil (function : Function Op) (block : Nat) :
    function.appendAll block [] = function := rfl

@[simp] theorem appendAll_cons (function : Function Op) (block : Nat) (inst : Inst Op)
    (insts : List (Inst Op)) :
    function.appendAll block (inst :: insts) = (function.append block inst).appendAll block insts :=
  rfl

@[simp] theorem insts_appendAll (function : Function Op) (block : Nat)
    (insts : List (Inst Op)) : (function.appendAll block insts).insts = function.insts ++ insts := by
  induction insts generalizing function with
  | nil => simp
  | cons inst insts ih => simp [ih]

@[simp] theorem blocks_length_appendAll (function : Function Op) (block : Nat)
    (insts : List (Inst Op)) :
    (function.appendAll block insts).blocks.length = function.blocks.length := by
  induction insts generalizing function with
  | nil => simp
  | cons inst insts ih => simp [ih]

@[simp] theorem incoming_appendAll (function : Function Op) (block : Nat)
    (insts : List (Inst Op)) : (function.appendAll block insts).incoming = function.incoming := by
  induction insts generalizing function with
  | nil => simp
  | cons inst insts ih => simp [ih]

@[simp] theorem cases_appendAll (function : Function Op) (block : Nat)
    (insts : List (Inst Op)) : (function.appendAll block insts).cases = function.cases := by
  induction insts generalizing function with
  | nil => simp
  | cons inst insts ih => simp [ih]

theorem append_addIncomings (function : Function Op) (entries : List (Nat × Value))
    (from? : Option Nat) (block : Nat) (inst : Inst Op) :
    (function.addIncomings entries from?).append block inst =
      (function.append block inst).addIncomings entries from? := rfl

theorem appendAll_addIncomings (function : Function Op) (entries : List (Nat × Value))
    (from? : Option Nat) (block : Nat) (insts : List (Inst Op)) :
    (function.addIncomings entries from?).appendAll block insts =
      (function.appendAll block insts).addIncomings entries from? := by
  induction insts generalizing function with
  | nil => rfl
  | cons inst insts ih => rw [appendAll_cons, append_addIncomings, ih, appendAll_cons]

theorem addIncomings_addIncomings (function : Function Op) (first second : List (Nat × Value))
    (from? : Option Nat) :
    (function.addIncomings first from?).addIncomings second from? =
      function.addIncomings (first ++ second) from? := by
  simp [addIncomings]

theorem body_appendAll_self {function : Function Op} {block : Nat} {insts : List (Inst Op)}
    (old : block < function.blocks.length) :
    (function.appendAll block insts).body block =
      function.body block ++ List.range' function.insts.length insts.length := by
  induction insts generalizing function with
  | nil => simp
  | cons inst insts ih =>
      have stillOld : block < (function.append block inst).blocks.length := by simpa using old
      rw [appendAll_cons, ih stillOld, body_append_self old]
      simp [List.range'_succ]

theorem body_appendAll_of_ne {function : Function Op} {target block : Nat}
    {insts : List (Inst Op)} (different : block ≠ target) :
    (function.appendAll target insts).body block = function.body block := by
  induction insts generalizing function with
  | nil => simp
  | cons inst insts ih => rw [appendAll_cons, ih, body_append_of_ne different]

end Function

end WasmToLlvm.Llvm
